import OpTrace.Proofs.Text.Brackets
import OpTrace.Text.Markup

/-!
# Elements in written markup

Texts and values are escaped when markup is written, so no bracket in the written text comes from
them. All brackets belong to tags. If the names in a tree are made of the characters of names, its
text is balanced, and a bracket with a word behind it stands there as often as the tree has
elements whose tag begins with the word.
-/

namespace OpTrace

theorem notMem_escapeMarkup {c : Char} (hc : c = '<' ∨ c = '>' ∨ c = '"') (text : List Char) :
    c ∉ escapeMarkup text := by
  intro hin
  obtain ⟨source, -, hin⟩ := List.mem_flatMap.mp hin
  unfold escapeMarkupChar at hin
  split_ifs at hin with hamp hopen hclose hquote
  · rcases hc with rfl | rfl | rfl <;> exact absurd hin (by decide)
  · rcases hc with rfl | rfl | rfl <;> exact absurd hin (by decide)
  · rcases hc with rfl | rfl | rfl <;> exact absurd hin (by decide)
  · rcases hc with rfl | rfl | rfl <;> exact absurd hin (by decide)
  · rw [List.mem_singleton] at hin
    subst hin
    tauto

theorem balanced_escapeMarkup (text : List Char) : Balanced (escapeMarkup text) :=
  .of_notMem (notMem_escapeMarkup (.inl rfl) text) (notMem_escapeMarkup (.inr (.inl rfl)) text)

/-- The characters that names and numbers are made of. -/
def isNameChar (c : Char) : Bool := c.isAlphanum || c == '-' || c == '.'

def isName (text : List Char) : Bool := text.all isNameChar

theorem notMem_of_isName {text : List Char} {c : Char} (h : isName text)
    (hc : isNameChar c = false) : c ∉ text := by
  intro hin
  rw [List.all_eq_true.mp h c hin] at hc
  cases hc

namespace Markup

def keysNamed (attributes : List (String × String)) : Bool :=
  attributes.all fun pair ↦ isName pair.1.toList

mutual

/-- Are the names of elements and attributes in a tree made of the characters of names? -/
def isNamed : Markup → Bool
  | text _ => true
  | element tag attributes children =>
    isName tag.toList && keysNamed attributes && areNamed children
  | single tag attributes => isName tag.toList && keysNamed attributes

def areNamed : List Markup → Bool
  | [] => true
  | item :: items => item.isNamed && areNamed items

end

mutual

/-- The tags of the elements in a tree, in the order in which these begin. -/
def tags : Markup → List String
  | text _ => []
  | element tag _ children => tag :: tagsOf children
  | single tag _ => [tag]

def tagsOf : List Markup → List String
  | [] => []
  | item :: items => item.tags ++ tagsOf items

end

variable {attributes : List (String × String)}

/-- Attributes bring no bracket. -/
theorem notMem_attributes (h : keysNamed attributes) {c : Char}
    (hc : c = '<' ∨ c = '>') : c ∉ attributes.flatMap writeAttribute := by
  intro hin
  obtain ⟨pair, hpair, hin⟩ := List.mem_flatMap.mp hin
  have hname : c ∉ pair.1.toList :=
    notMem_of_isName (List.all_eq_true.mp h pair hpair) (by rcases hc with rfl | rfl <;> rfl)
  have hvalue : c ∉ escapeMarkup pair.2.toList :=
    notMem_escapeMarkup (hc.imp_right .inl) pair.2.toList
  have hsigns : c ≠ ' ' ∧ c ≠ '=' ∧ c ≠ '"' := by rcases hc with rfl | rfl <;> decide
  simp only [writeAttribute, List.cons_append, List.append_assoc, List.mem_cons, List.mem_append,
    List.not_mem_nil, hname, hvalue, hsigns, or_self] at hin

/-- Behind the attributes of an element no name goes on. -/
theorem head?_attributes_append (attributes : List (String × String)) {c : Char}
    (hc : isNameChar c = false) (rest : List Char) :
    ∃ d later, attributes.flatMap writeAttribute ++ c :: rest = d :: later ∧
      isNameChar d = false := by
  cases attributes with
  | nil => exact ⟨c, rest, rfl, hc⟩
  | cons pair attributes => exact ⟨' ', _, rfl, rfl⟩

/-- A tag with what stands in it between brackets. -/
theorem balanced_tag {text : List Char} (h : '<' ∉ text) (h' : '>' ∉ text) :
    Balanced ('<' :: (text ++ ['>'])) :=
  (Balanced.of_notMem h h').isBracketed.balanced

/-- No bracket stands in the tag that begins an element. -/
theorem notMem_front {tag : String} (htag : isName tag.toList)
    (h : keysNamed attributes) {c : Char} (hc : c = '<' ∨ c = '>') :
    c ∉ tag.toList ++ attributes.flatMap writeAttribute := by
  have hname : c ∉ tag.toList := notMem_of_isName htag (by rcases hc with rfl | rfl <;> rfl)
  exact List.not_mem_append hname (notMem_attributes h hc)

mutual

/-- Markup closes every bracket that it opens. -/
theorem balanced_write : ∀ item : Markup, item.isNamed → Balanced item.write
  | text s, _ => balanced_escapeMarkup s.toList
  | element tag attributes children, h => by
    simp only [isNamed, Bool.and_eq_true] at h
    obtain ⟨⟨htag, hattributes⟩, hchildren⟩ := h
    have hfront : Balanced
        ('<' :: (tag.toList ++ attributes.flatMap writeAttribute ++ ['>'])) :=
      balanced_tag (notMem_front htag hattributes (.inl rfl))
        (notMem_front htag hattributes (.inr rfl))
    have hback : Balanced ('<' :: ('/' :: tag.toList ++ ['>'])) := by
      apply balanced_tag
      · exact List.not_mem_cons_of_ne_of_not_mem (by decide) (notMem_of_isName htag rfl)
      · exact List.not_mem_cons_of_ne_of_not_mem (by decide) (notMem_of_isName htag rfl)
    have hall := (hfront.append (balanced_writeAll children hchildren)).append hback
    simpa only [write, opening, List.append_assoc, List.cons_append, List.nil_append] using hall
  | single tag attributes, h => by
    simp only [isNamed, Bool.and_eq_true] at h
    obtain ⟨htag, hattributes⟩ := h
    have hall : Balanced
        ('<' :: (tag.toList ++ attributes.flatMap writeAttribute ++ ['/'] ++ ['>'])) := by
      apply balanced_tag
      · exact List.not_mem_append (notMem_front htag hattributes (.inl rfl)) (by decide)
      · exact List.not_mem_append (notMem_front htag hattributes (.inr rfl)) (by decide)
    simpa only [write, opening, List.append_assoc, List.cons_append, List.nil_append] using hall

theorem balanced_writeAll : ∀ items : List Markup, areNamed items → Balanced (writeAll items)
  | [], _ => .of_notMem List.not_mem_nil List.not_mem_nil
  | item :: items, h => by
    simp only [areNamed, Bool.and_eq_true] at h
    exact (balanced_write item h.1).append (balanced_writeAll items h.2)

end

end Markup

/-- How often a word that is not empty stands in a text. -/
def occurrences (word : List Char) : List Char → Nat
  | [] => 0
  | c :: rest => (if word <+: c :: rest then 1 else 0) + occurrences word rest

section Occurrences

variable {c : Char} {word front back : List Char}

theorem occurrences_cons_of_ne {d : Char} (h : c ≠ d) :
    occurrences (c :: word) (d :: back) = occurrences (c :: word) back := by
  have hfirst : ¬ c :: word <+: d :: back := fun hstarts ↦ h (List.cons_prefix_cons.mp hstarts).1
  rw [occurrences, if_neg hfirst, Nat.zero_add]

/-- What does not hold the first character of a word can be passed over. -/
theorem occurrences_append_of_notMem (h : c ∉ front) :
    occurrences (c :: word) (front ++ back) = occurrences (c :: word) back := by
  induction front with
  | nil => rfl
  | cons d front ih =>
    rw [List.mem_cons, not_or] at h
    rw [List.cons_append, occurrences_cons_of_ne h.1, ih h.2]

/-- A word of the characters of names that begins a text ends before the first other character. -/
theorem prefix_append_iff_of_isName (hword : isName word) (hc : isNameChar c = false) :
    word <+: front ++ c :: back ↔ word <+: front := by
  induction front generalizing word with
  | nil =>
    cases word with
    | nil => simp
    | cons d word =>
      have hd : isNameChar d := List.all_eq_true.mp hword d List.mem_cons_self
      have hne : d ≠ c := by
        rintro rfl
        rw [hd] at hc
        cases hc
      simp [hne]
  | cons e front ih =>
    cases word with
    | nil => simp
    | cons d word =>
      have hrest : isName word := by
        rw [isName, List.all_cons, Bool.and_eq_true] at hword
        exact hword.2
      rw [List.cons_append, List.cons_prefix_cons, List.cons_prefix_cons, ih hrest]

end Occurrences

namespace Markup

variable {word : List Char}

/-- In a tag that begins an element the word can only stand in front. -/
theorem occurrences_opening {tag : String} {attributes : List (String × String)} {c : Char}
    (hword : isName word) (htag : isName tag.toList)
    (hattributes : keysNamed attributes) (hc : isNameChar c = false)
    (rest : List Char) :
    occurrences ('<' :: word) (opening tag attributes ++ c :: rest) =
      (if word <+: tag.toList then 1 else 0) + occurrences ('<' :: word) (c :: rest) := by
  obtain ⟨d, later, hlater, hd⟩ := head?_attributes_append attributes hc rest
  have hbegins : '<' :: word <+: '<' :: (tag.toList ++ d :: later) ↔ word <+: tag.toList := by
    rw [List.cons_prefix_cons, prefix_append_iff_of_isName hword hd]
    simp
  calc
    occurrences ('<' :: word) (opening tag attributes ++ c :: rest)
        = occurrences ('<' :: word) ('<' :: (tag.toList ++ d :: later)) := by
      rw [← hlater, opening, List.cons_append, List.cons_append, List.append_assoc]
    _ = (if word <+: tag.toList then 1 else 0) +
        occurrences ('<' :: word) (tag.toList ++ d :: later) := by
      simp only [occurrences, hbegins]
    _ = _ := by
      rw [← hlater, ← List.append_assoc,
        occurrences_append_of_notMem (notMem_front htag hattributes (.inl rfl))]

/-- In a tag that ends an element the word does not stand. -/
theorem occurrences_closing {tag : String} (hword : isName word) (hne : word ≠ [])
    (htag : isName tag.toList) (rest : List Char) :
    occurrences ('<' :: word) ('<' :: '/' :: (tag.toList ++ '>' :: rest)) =
      occurrences ('<' :: word) rest := by
  have hslash : ¬ '<' :: word <+: '<' :: '/' :: (tag.toList ++ '>' :: rest) := by
    cases word with
    | nil => exact absurd rfl hne
    | cons d word =>
      intro hstarts
      rw [List.cons_prefix_cons, List.cons_prefix_cons] at hstarts
      have hd := List.all_eq_true.mp hword d List.mem_cons_self
      rw [hstarts.2.1] at hd
      exact absurd hd (by decide)
  rw [occurrences, if_neg hslash, Nat.zero_add, occurrences_cons_of_ne (by decide),
    occurrences_append_of_notMem (notMem_of_isName htag rfl), occurrences_cons_of_ne (by decide)]

mutual

/-- A bracket with a word behind it stands in markup for each element whose tag begins with the
word, and nowhere else. -/
theorem occurrences_write (hword : isName word) (hne : word ≠ []) : ∀ item : Markup,
    item.isNamed → ∀ rest, occurrences ('<' :: word) (item.write ++ rest) =
      item.tags.countP (fun tag ↦ word <+: tag.toList) + occurrences ('<' :: word) rest
  | text s, _, rest => by
    rw [write, occurrences_append_of_notMem (notMem_escapeMarkup (.inl rfl) s.toList), tags,
      List.countP_nil, Nat.zero_add]
  | element tag attributes children, h, rest => by
    simp only [isNamed, Bool.and_eq_true] at h
    obtain ⟨⟨htag, hattributes⟩, hchildren⟩ := h
    have hwrite : (element tag attributes children).write ++ rest = opening tag attributes ++
        '>' :: (writeAll children ++ '<' :: '/' :: (tag.toList ++ '>' :: rest)) := by
      simp [write]
    rw [hwrite, occurrences_opening hword htag hattributes rfl, occurrences_cons_of_ne (by decide),
      occurrences_writeAll hword hne children hchildren, occurrences_closing hword hne htag, tags,
      List.countP_cons]
    simp only [decide_eq_true_eq]
    omega
  | single tag attributes, h, rest => by
    simp only [isNamed, Bool.and_eq_true] at h
    obtain ⟨htag, hattributes⟩ := h
    have hwrite : (single tag attributes).write ++ rest =
        opening tag attributes ++ '/' :: '>' :: rest := by
      simp [write]
    rw [hwrite, occurrences_opening hword htag hattributes rfl, occurrences_cons_of_ne (by decide),
      occurrences_cons_of_ne (by decide), tags, List.countP_singleton]
    simp only [decide_eq_true_eq]

theorem occurrences_writeAll (hword : isName word) (hne : word ≠ []) : ∀ items : List Markup,
    areNamed items → ∀ rest, occurrences ('<' :: word) (writeAll items ++ rest) =
      (tagsOf items).countP (fun tag ↦ word <+: tag.toList) + occurrences ('<' :: word) rest
  | [], _, rest => by
    rw [writeAll, List.nil_append, tagsOf, List.countP_nil, Nat.zero_add]
  | item :: items, h, rest => by
    simp only [areNamed, Bool.and_eq_true] at h
    rw [writeAll, List.append_assoc, occurrences_write hword hne item h.1,
      occurrences_writeAll hword hne items h.2, tagsOf, List.countP_append, Nat.add_assoc]

end

example : occurrences "<rect".toList
    (element "rect" [("fill", "<rect")] [text "<rect", single "rect" []]).write = 2 := by decide

end Markup

end OpTrace
