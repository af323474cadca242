import Mathlib.Data.List.Nodup
import OpTrace.Category.Table

/-!
# What makes a table of categories

Categories make a table if and only if there is one at least and no tag occurs twice in them. The
table then finds a tag at the place of the one category that has it.

Otherwise the tags are read category by category up to the first one that was there before.
`FirstClash` says where this is, without the list of earlier tags that the reading keeps: the tags
in front of it all differ, and one of them is the same tag, in an earlier category or in the same
one. The error names the tag and these two categories.
-/

namespace OpTrace

namespace Category

/-- The category at the place has the tag. -/
def HasAt (categories : List Category) (index : Nat) (tag : String) : Prop :=
  ∃ category, categories[index]? = some category ∧ tag ∈ category.tags

/-- The first repetition: `second` repeats `tag`, which `first` has claimed, and in front of it all
tags differ. -/
def FirstClash (categories : List Category) (tag : String) (first second : Category) : Prop :=
  ∃ earlier later seen rest,
    categories = earlier ++ second :: later ∧ second.tags = seen ++ tag :: rest ∧
      (earlier.flatMap (·.tags) ++ seen).Nodup ∧
        (first ∈ earlier ∧ tag ∈ first.tags ∨ first = second ∧ tag ∈ seen)

/-- Tags with the name of the category that they are read from. -/
def named (name : String) (tags : List String) : List (String × String) :=
  tags.map fun tag ↦ (tag, name)

theorem ownedTags_cons (category : Category) (categories : List Category) :
    ownedTags (category :: categories) = named category.name category.tags ++ ownedTags categories :=
  rfl

theorem ownedTags_append (categories others : List Category) :
    ownedTags (categories ++ others) = ownedTags categories ++ ownedTags others :=
  List.flatMap_append

theorem map_fst_named (name : String) (tags : List String) :
    (named name tags).map Prod.fst = tags := by
  simp [named, Function.comp_def]

theorem mem_named {name : String} {tags : List String} {pair : String × String} :
    pair ∈ named name tags ↔ pair.1 ∈ tags ∧ pair.2 = name := by
  obtain ⟨tag, owner⟩ := pair
  simp [named, eq_comm]

theorem mem_ownedTags {categories : List Category} {tag name : String} :
    (tag, name) ∈ ownedTags categories ↔
      ∃ category ∈ categories, tag ∈ category.tags ∧ category.name = name := by
  simp [ownedTags]

/-- What stands in front of a tag are the tags of earlier categories, and some of its own one. -/
theorem exists_of_ownedTags_eq {categories : List Category} {before after : List (String × String)}
    {tag name : String} (h : ownedTags categories = before ++ (tag, name) :: after) :
    ∃ earlier second later seen rest, categories = earlier ++ second :: later ∧
      second.tags = seen ++ tag :: rest ∧ second.name = name ∧
        before = ownedTags earlier ++ named name seen := by
  induction categories generalizing before with
  | nil => simp [ownedTags] at h
  | cons category categories ih =>
    have hlater (front : List (String × String))
        (hrest : ownedTags categories = front ++ (tag, name) :: after)
        (hbefore : before = named category.name category.tags ++ front) :
        ∃ earlier second later seen rest, category :: categories = earlier ++ second :: later ∧
          second.tags = seen ++ tag :: rest ∧ second.name = name ∧
            before = ownedTags earlier ++ named name seen := by
      obtain ⟨earlier, second, later, seen, rest, rfl, htags, hname, rfl⟩ := ih hrest
      refine ⟨category :: earlier, second, later, seen, rest, rfl, htags, hname, ?_⟩
      rw [hbefore, ownedTags_cons, List.append_assoc]
    rw [ownedTags_cons, List.append_eq_append_iff] at h
    rcases h with ⟨front, hbefore, hrest⟩ | ⟨back, hown, hback⟩
    · exact hlater front hrest hbefore
    · cases back with
      | nil =>
        rw [List.append_nil] at hown
        exact hlater [] hback.symm (by rw [hown, List.append_nil])
      | cons pair back =>
        -- the tag is one of the first category
        obtain ⟨rfl, -⟩ := List.cons.inj hback
        obtain ⟨seen, others, htags, hseen, hothers⟩ := List.map_eq_append_iff.mp hown
        obtain ⟨_, rest, rfl, hpair, -⟩ := List.map_eq_cons_iff.mp hothers
        obtain ⟨rfl, rfl⟩ := Prod.mk.inj hpair
        exact ⟨[], category, categories, seen, rest, rfl, htags, rfl, hseen.symm⟩

end Category

/-- A list that names each tag once finds what it has. -/
theorem lookup_eq_some_iff_mem {owned : List (String × String)} (h : (owned.map Prod.fst).Nodup)
    {tag name : String} : owned.lookup tag = some name ↔ (tag, name) ∈ owned := by
  induction owned with
  | nil => simp
  | cons pair owned ih =>
    obtain ⟨other, owner⟩ := pair
    rw [List.map_cons, List.nodup_cons] at h
    by_cases heq : tag = other
    · subst heq
      have hnot : (tag, name) ∉ owned := fun hmem ↦ h.1 (List.mem_map.mpr ⟨_, hmem, rfl⟩)
      simp [hnot, eq_comm]
    · simp [List.lookup_cons, beq_false_of_ne heq, ih h.2, heq]

namespace CategoryError

variable {earlier owned before : List (String × String)} {error : CategoryError}

/-- Tags without a repetition are earlier tags for what follows. -/
theorem ofOwnedTags?_append (h : ofOwnedTags? earlier before = none)
    (rest : List (String × String)) :
    ofOwnedTags? earlier (before ++ rest) = ofOwnedTags? (before.reverse ++ earlier) rest := by
  induction before generalizing earlier with
  | nil => rfl
  | cons pair before ih =>
    obtain ⟨tag, name⟩ := pair
    rw [ofOwnedTags?] at h
    rw [List.cons_append, ofOwnedTags?]
    cases hlookup : earlier.lookup tag with
    | some first => simp [hlookup] at h
    | none =>
      simp only [hlookup] at h ⊢
      rw [ih h, List.reverse_cons, List.append_assoc, List.singleton_append]

/-- An error is found at a tag that is there already, behind tags without a repetition. -/
theorem exists_of_ofOwnedTags? (h : ofOwnedTags? earlier owned = some error) :
    ∃ before after tag first second, owned = before ++ (tag, second) :: after ∧
      ofOwnedTags? earlier before = none ∧ (before.reverse ++ earlier).lookup tag = some first ∧
        error = .duplicate tag first second := by
  induction owned generalizing earlier with
  | nil => simp [ofOwnedTags?] at h
  | cons pair rest ih =>
    obtain ⟨tag, name⟩ := pair
    rw [ofOwnedTags?] at h
    cases hlookup : earlier.lookup tag with
    | some first =>
      simp only [hlookup, Option.some.injEq] at h
      exact ⟨[], rest, tag, first, name, rfl, rfl, hlookup, h.symm⟩
    | none =>
      simp only [hlookup] at h
      obtain ⟨before, after, other, first, second, rfl, hnone, hfirst, rfl⟩ := ih h
      refine ⟨(tag, name) :: before, after, other, first, second, rfl, ?_, ?_, rfl⟩
      · rw [ofOwnedTags?, hlookup]
        exact hnone
      · rwa [List.reverse_cons, List.append_assoc, List.singleton_append]

/-- Without earlier tags, the error is the first repetition among the tags. -/
theorem ofOwnedTags?_eq_some_iff : ofOwnedTags? [] owned = some error ↔
    ∃ before after tag first second, owned = before ++ (tag, second) :: after ∧
      (before.map Prod.fst).Nodup ∧ (tag, first) ∈ before ∧
        error = .duplicate tag first second := by
  have hnone (before : List (String × String)) :
      ofOwnedTags? [] before = none ↔ (before.map Prod.fst).Nodup := by
    simp [ofOwnedTags?_eq_none_iff]
  have hlookup {before : List (String × String)} (h : (before.map Prod.fst).Nodup)
      (tag first : String) :
      (before.reverse ++ []).lookup tag = some first ↔ (tag, first) ∈ before := by
    rw [List.append_nil, lookup_eq_some_iff_mem, List.mem_reverse]
    rwa [List.map_reverse, List.nodup_reverse]
  constructor
  · intro h
    obtain ⟨before, after, tag, first, second, rfl, hnew, hfirst, rfl⟩ := exists_of_ofOwnedTags? h
    have hnodup := (hnone before).mp hnew
    exact ⟨before, after, tag, first, second, rfl, hnodup, (hlookup hnodup tag first).mp hfirst, rfl⟩
  · rintro ⟨before, after, tag, first, second, rfl, hnodup, hmem, rfl⟩
    rw [ofOwnedTags?_append ((hnone before).mpr hnodup), ofOwnedTags?,
      (hlookup hnodup tag first).mpr hmem]

/-- The error names the first clash. -/
theorem ofOwnedTags?_ownedTags (categories : List Category) :
    ofOwnedTags? [] (Category.ownedTags categories) = some error ↔ ∃ tag first second,
      Category.FirstClash categories tag first second ∧
        error = .duplicate tag first.name second.name := by
  rw [ofOwnedTags?_eq_some_iff]
  constructor
  · rintro ⟨before, after, tag, first, second, hsplit, hnodup, hmem, rfl⟩
    obtain ⟨earlier, repeater, later, seen, rest, rfl, htags, rfl, rfl⟩ :=
      Category.exists_of_ownedTags_eq hsplit
    rw [List.map_append, Category.map_fst_ownedTags, Category.map_fst_named] at hnodup
    rcases List.mem_append.mp hmem with hmem | hmem
    · obtain ⟨claimant, hclaimant, htag, rfl⟩ := Category.mem_ownedTags.mp hmem
      exact ⟨tag, claimant, repeater,
        ⟨earlier, later, seen, rest, rfl, htags, hnodup, .inl ⟨hclaimant, htag⟩⟩, rfl⟩
    · obtain ⟨htag, rfl⟩ := Category.mem_named.mp hmem
      exact ⟨tag, repeater, repeater,
        ⟨earlier, later, seen, rest, rfl, htags, hnodup, .inr ⟨rfl, htag⟩⟩, rfl⟩
  · rintro ⟨tag, first, second, ⟨earlier, later, seen, rest, rfl, htags, hnodup, hclaim⟩, rfl⟩
    refine ⟨Category.ownedTags earlier ++ Category.named second.name seen,
      Category.named second.name rest ++ Category.ownedTags later, tag, first.name, second.name,
      ?_, ?_, ?_, rfl⟩
    · simp [Category.ownedTags_append, Category.ownedTags_cons, htags, Category.named]
    · rwa [List.map_append, Category.map_fst_ownedTags, Category.map_fst_named]
    · rw [List.mem_append, Category.mem_ownedTags, Category.mem_named]
      rcases hclaim with ⟨hmem, htag⟩ | ⟨rfl, htag⟩
      · exact .inl ⟨first, hmem, htag, rfl⟩
      · exact .inr ⟨htag, rfl⟩

end CategoryError

namespace CategoryTable

variable {table : CategoryTable} {categories : List Category}

/-- A table is made of the categories that it lists. -/
theorem ofCategories_eq_ok_iff :
    ofCategories categories = .ok table ↔ table.categories = categories := by
  unfold ofCategories
  constructor
  · intro h
    split at h
    · cases h
    · split at h
      · cases h
      · cases h
        rfl
  · rintro rfl
    rw [dif_neg table.ne_nil]
    split
    next error hclash =>
      have hnone : CategoryError.ofOwnedTags? [] (Category.ownedTags table.categories) = none := by
        rw [CategoryError.ofOwnedTags?_eq_none_iff, Category.map_fst_ownedTags]
        exact ⟨table.nodup_tags, fun _ _ ↦ List.not_mem_nil⟩
      rw [hnone] at hclash
      cases hclash
    next => rfl

theorem ofCategories_eq_error_iff {error : CategoryError} :
    ofCategories categories = .error error ↔ categories = [] ∧ error = .empty ∨
      categories ≠ [] ∧
        CategoryError.ofOwnedTags? [] (Category.ownedTags categories) = some error := by
  unfold ofCategories
  by_cases hne : categories = []
  · simp [hne, eq_comm]
  · rw [dif_neg hne]
    split
    next found hclash => simp [hne, hclash]
    next hclash => simp [hne, hclash]

/-- No tag belongs to two categories. -/
theorem eq_of_hasAt {tag : String} {index other : Nat}
    (h : Category.HasAt table.categories index tag)
    (hother : Category.HasAt table.categories other tag) : index = other := by
  obtain ⟨category, hget, htag⟩ := h
  obtain ⟨category', hget', htag'⟩ := hother
  obtain ⟨hlt, rfl⟩ := List.getElem?_eq_some_iff.mp hget
  obtain ⟨hlt', rfl⟩ := List.getElem?_eq_some_iff.mp hget'
  have hdisjoint := List.pairwise_iff_getElem.mp (List.nodup_flatMap.mp table.nodup_tags).2
  rcases Nat.lt_trichotomy index other with hbefore | heq | hbefore
  · exact absurd htag' (hdisjoint index other hlt hlt' hbefore htag)
  · exact heq
  · exact absurd htag (hdisjoint other index hlt' hlt hbefore htag')

/-- A tag is found where it is. -/
theorem classify_eq_some_iff {tag : String} {index : Nat} :
    table.classify tag = some index ↔ Category.HasAt table.categories index tag := by
  have hfound {place : Nat} (h : table.classify tag = some place) :
      Category.HasAt table.categories place tag := by
    obtain ⟨hlt, htag, -⟩ := List.findIdx?_eq_some_iff_getElem.mp h
    exact ⟨_, List.getElem?_eq_getElem hlt, of_decide_eq_true htag⟩
  refine ⟨hfound, fun h ↦ ?_⟩
  cases hclassify : table.classify tag with
  | some place => rw [eq_of_hasAt (hfound hclassify) h]
  | none =>
    obtain ⟨category, hget, htag⟩ := h
    have hnot := List.findIdx?_eq_none_iff.mp hclassify category (List.mem_of_getElem? hget)
    simp [htag] at hnot

/-- What the table of `categories` lists and finds. -/
structure Finds (table : CategoryTable) (categories : List Category) : Prop where
  lists : table.categories = categories
  classify_iff : ∀ tag index,
    table.classify tag = some index ↔ Category.HasAt categories index tag
  lt_size : ∀ tag index, table.classify tag = some index → index < table.size
  unique : ∀ tag index other,
    Category.HasAt categories index tag → Category.HasAt categories other tag → index = other

theorem finds_categories (table : CategoryTable) : table.Finds table.categories where
  lists := rfl
  classify_iff _ _ := classify_eq_some_iff
  lt_size tag index h := by
    obtain ⟨_, hget, -⟩ := classify_eq_some_iff.mp h
    exact (List.getElem?_eq_some_iff.mp hget).1
  unique _ _ _ := eq_of_hasAt

/-- A list that has a first clash makes no table, and the error is the clash. -/
theorem ofCategories_eq_duplicate_iff {tag first second : String} :
    ofCategories categories = .error (.duplicate tag first second) ↔
      ∃ claimant repeater, Category.FirstClash categories tag claimant repeater ∧
        first = claimant.name ∧ second = repeater.name := by
  rw [ofCategories_eq_error_iff, CategoryError.ofOwnedTags?_ownedTags]
  constructor
  · rintro (⟨-, herror⟩ | ⟨-, _, claimant, repeater, hclash, herror⟩)
    · cases herror
    · cases herror
      exact ⟨claimant, repeater, hclash, rfl, rfl⟩
  · rintro ⟨claimant, repeater, hclash, rfl, rfl⟩
    have hne : categories ≠ [] := by
      obtain ⟨earlier, later, _, _, rfl, -⟩ := hclash
      exact List.append_ne_nil_of_right_ne_nil _ (List.cons_ne_nil _ _)
    exact .inr ⟨hne, tag, claimant, repeater, hclash, rfl⟩

/-- Categories make a table if there is one and all their tags differ, and the table finds each tag
where it is. Otherwise the error says that there is no category, or names the first clash. -/
theorem ofCategories_settled (categories : List Category) :
    ((∃ table, ofCategories categories = .ok table) ↔
        categories ≠ [] ∧ (categories.flatMap (·.tags)).Nodup) ∧
      (∀ table, ofCategories categories = .ok table → table.Finds categories) ∧
      (ofCategories categories = .error .empty ↔ categories = []) ∧
      (∀ tag first second, ofCategories categories = .error (.duplicate tag first second) ↔
        ∃ claimant repeater, Category.FirstClash categories tag claimant repeater ∧
          first = claimant.name ∧ second = repeater.name) ∧
      ∀ tag claimant repeater, Category.FirstClash categories tag claimant repeater →
        ∃ error, ofCategories categories = .error error ∧ error.message =
          s!"Duplicate sm_tag '{tag}' in categories '{claimant.name}' and '{repeater.name}'" := by
  refine ⟨⟨?_, ?_⟩, ?_, ?_, fun _ _ _ ↦ ofCategories_eq_duplicate_iff, ?_⟩
  · rintro ⟨table, h⟩
    rw [← ofCategories_eq_ok_iff.mp h]
    exact ⟨table.ne_nil, table.nodup_tags⟩
  · exact fun ⟨hne, hnodup⟩ ↦ ⟨⟨categories, hne, hnodup⟩, ofCategories_eq_ok_iff.mpr rfl⟩
  · intro table h
    exact ofCategories_eq_ok_iff.mp h ▸ table.finds_categories
  · simp [ofCategories_eq_error_iff, CategoryError.ofOwnedTags?_ownedTags]
  · intro tag claimant repeater hclash
    exact ⟨_, ofCategories_eq_duplicate_iff.mpr ⟨claimant, repeater, hclash, rfl, rfl⟩, rfl⟩

end CategoryTable

namespace Claimed

/-- "M0" is repeated behind "KVS", which the last category repeats as well. -/
def categories : List Category :=
  [{ name := "store", tags := ["KVS", "M0"] }, { name := "motor", tags := ["MOTR", "M0", "M0"] },
    { name := "keys", tags := ["KVS"] }]

theorem firstClash : ∃ first second, Category.FirstClash categories "M0" first second ∧
    first.name = "store" ∧ second.name = "motor" :=
  ⟨_, _, ⟨[_], [_], ["MOTR"], ["M0"], rfl, rfl, by decide, .inl ⟨List.mem_cons_self, by decide⟩⟩,
    rfl, rfl⟩

end Claimed

/-- The error names "M0" with the two categories that have it first. -/
theorem CategoryTable.ofCategories_claimed :
    ofCategories Claimed.categories = .error (.duplicate "M0" "store" "motor") ∧
      ∃ index, standard.classify "MOTR" = some index ∧ index < standard.size := by
  obtain ⟨first, second, hclash, hfirst, hsecond⟩ := Claimed.firstClash
  refine ⟨((ofCategories_settled Claimed.categories).2.2.2.1 _ _ _).mpr
    ⟨first, second, hclash, hfirst.symm, hsecond.symm⟩, 6, by decide, ?_⟩
  have hfinds := (ofCategories_settled standardCategories).2.1 _ ofCategories_standardCategories
  exact hfinds.lt_size "MOTR" 6 (by decide)

end OpTrace
