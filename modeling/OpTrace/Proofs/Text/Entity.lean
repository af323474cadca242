import OpTrace.Proofs.Text.Markup

/-!
# Entities

Escaping puts an entity in the place of each character that has a meaning in markup. The entities
can be put in one after another, since each begins with an ampersand, which is replaced first, and
holds no character that is replaced later.

In an escaped text every ampersand begins an entity. A reader that puts characters in the places of
entities, from left to right, therefore finds the entities that were written and no others, and
gives back the text, also one that holds entities or parts of them.
-/

namespace OpTrace

/-- A text with a word in each place of a character. -/
def replaceChar (c : Char) (word : List Char) (text : List Char) : List Char :=
  text.flatMap fun d ↦ if d = c then word else [d]

/-- A text with the replacements of a table made one after another, each in what the earlier ones
have left. -/
def replaceInTurn (rows : List (Char × List Char)) (text : List Char) : List Char :=
  rows.foldl (fun text row ↦ replaceChar row.1 row.2 text) text

/-- What a table puts in the place of a character. -/
def standIn (rows : List (Char × List Char)) (c : Char) : List Char :=
  match rows.find? (c = ·.1) with
  | some row => row.2
  | none => [c]

section Replacements

variable {rows : List (Char × List Char)} {c : Char} {text : List Char}

theorem standIn_cons (row : Char × List Char) :
    standIn (row :: rows) c = if c = row.1 then row.2 else standIn rows c := by
  by_cases h : c = row.1
  · rw [standIn, List.find?_cons_of_pos (by simpa using h), if_pos h]
  · rw [standIn, List.find?_cons_of_neg (by simpa using h), if_neg h, standIn]

theorem standIn_eq_singleton (h : ∀ row ∈ rows, c ≠ row.1) : standIn rows c = [c] := by
  rw [standIn, List.find?_eq_none.mpr (by simpa using h)]

/-- A text without the characters of a table stays as it is. -/
theorem flatMap_standIn_eq_self (h : ∀ row ∈ rows, row.1 ∉ text) :
    text.flatMap (standIn rows) = text := by
  have hsame : ∀ c ∈ text, standIn rows c = [c] := fun c hc ↦
    standIn_eq_singleton fun row hrow ↦ ne_of_mem_of_not_mem hc (h row hrow)
  rw [List.flatMap_congr hsame]
  exact List.flatMap_singleton' text

/-- If no word holds a character that is replaced later, the replacements can be made at once. -/
theorem replaceInTurn_eq_flatMap (h : rows.Pairwise fun row later ↦ later.1 ∉ row.2)
    (text : List Char) : replaceInTurn rows text = text.flatMap (standIn rows) := by
  induction rows generalizing text with
  | nil => exact (List.flatMap_singleton' text).symm
  | cons row rows ih =>
    obtain ⟨hword, hrows⟩ := List.pairwise_cons.mp h
    calc
      replaceInTurn (row :: rows) text = replaceInTurn rows (replaceChar row.1 row.2 text) := rfl
      _ = (replaceChar row.1 row.2 text).flatMap (standIn rows) := ih hrows _
      _ = text.flatMap (fun c ↦ (if c = row.1 then row.2 else [c]).flatMap (standIn rows)) :=
        List.flatMap_assoc
      _ = text.flatMap (standIn (row :: rows)) := by
        apply List.flatMap_congr
        intro c _
        rw [standIn_cons]
        split_ifs
        · exact flatMap_standIn_eq_self hword
        · exact List.flatMap_singleton ..

end Replacements

/-- The characters that have a meaning in markup with their entities, in the order in which they are
replaced. -/
def entities : List (Char × List Char) :=
  [('&', "&amp;".toList), ('<', "&lt;".toList), ('>', "&gt;".toList), ('"', "&quot;".toList)]

section Entities

variable {entity : Char × List Char} {c : Char} {rest : List Char}

/-- No entity holds a character that is replaced after its own. -/
theorem pairwise_entities : entities.Pairwise fun entity later ↦ later.1 ∉ entity.2 := by decide

/-- No entity is the front of another. -/
theorem eq_of_prefix_of_mem_entities : ∀ first ∈ entities, ∀ second ∈ entities,
    first.2 <+: second.2 → first = second := by
  decide

/-- An ampersand stands at the front of each entity and nowhere else in it. -/
theorem exists_eq_cons_of_mem_entities : ∀ entity ∈ entities,
    ∃ name, entity.2 = '&' :: name ∧ '&' ∉ name := by
  intro entity h
  refine ⟨entity.2.tail, ?_, ?_⟩ <;> revert entity <;> decide

theorem escapeMarkupChar_of_mem_entities : ∀ entity ∈ entities,
    escapeMarkupChar entity.1 = entity.2 := by
  decide

theorem escapeMarkupChar_eq_standIn : escapeMarkupChar = standIn entities := by
  funext c
  simp only [escapeMarkupChar, entities, standIn_cons]
  rfl

/-- Escaping replaces the characters one after another, the ampersand first. -/
theorem escapeMarkup_eq_replaceInTurn (text : List Char) :
    escapeMarkup text = replaceInTurn entities text := by
  rw [replaceInTurn_eq_flatMap pairwise_entities, escapeMarkup, escapeMarkupChar_eq_standIn]

/-- With the ampersand last, those of the entities are replaced as well. -/
example : replaceInTurn entities.reverse ['<'] = "&amp;lt;".toList := by decide

theorem escapeMarkup_cons (c : Char) (text : List Char) :
    escapeMarkup (c :: text) = escapeMarkupChar c ++ escapeMarkup text :=
  List.flatMap_cons

/-- A character has an entity, or it stands for itself and is no ampersand. -/
theorem escapeMarkupChar_cases (c : Char) :
    (∃ entity ∈ entities, entity.1 = c ∧ escapeMarkupChar c = entity.2) ∨
      c ≠ '&' ∧ escapeMarkupChar c = [c] := by
  rw [escapeMarkupChar_eq_standIn]
  cases hfind : entities.find? (c = ·.1) with
  | some entity =>
    have hc : c = entity.1 := by simpa using List.find?_some hfind
    exact .inl ⟨entity, List.mem_of_find?_eq_some hfind, hc.symm, by rw [standIn, hfind]⟩
  | none =>
    have hnone : ∀ entity ∈ entities, c ≠ entity.1 := by simpa using List.find?_eq_none.mp hfind
    exact .inr ⟨hnone ('&', _) List.mem_cons_self, standIn_eq_singleton hnone⟩

/-- A text without brackets and quotes, in which each ampersand begins an entity. -/
structure IsEscaped (text : List Char) : Prop where
  opening : '<' ∉ text
  closing : '>' ∉ text
  quote : '"' ∉ text
  ampersand : ∀ front back, text = front ++ '&' :: back →
    ∃ entity ∈ entities, entity.2 <+: '&' :: back

theorem IsEscaped.of_append (front : List Char) {back : List Char}
    (h : IsEscaped (front ++ back)) : IsEscaped back where
  opening hin := h.opening (List.mem_append_right front hin)
  closing hin := h.closing (List.mem_append_right front hin)
  quote hin := h.quote (List.mem_append_right front hin)
  ampersand before later hback := by
    apply h.ampersand (front ++ before) later
    rw [hback, List.append_assoc]

/-- An ampersand in what stands for a character is the front of an entity. -/
theorem exists_entity_of_escapeMarkupChar_eq {front back : List Char}
    (h : escapeMarkupChar c = front ++ '&' :: back) :
    ∃ entity ∈ entities, entity.2 = '&' :: back := by
  rcases escapeMarkupChar_cases c with ⟨entity, hentity, -, hword⟩ | ⟨hne, hword⟩
  · obtain ⟨name, hname, hnot⟩ := exists_eq_cons_of_mem_entities entity hentity
    rw [hword, hname] at h
    cases front with
    | nil => exact ⟨entity, hentity, hname.trans h⟩
    | cons first front =>
      have htail : name = front ++ '&' :: back := (List.cons.inj h).2
      exact absurd (htail ▸ List.mem_append_right front List.mem_cons_self) hnot
  · have hin : '&' ∈ [c] := by
      rw [← hword, h]
      exact List.mem_append_right front List.mem_cons_self
    exact absurd (List.mem_singleton.mp hin).symm hne

theorem exists_entity_of_escapeMarkup_eq {text front back : List Char}
    (h : escapeMarkup text = front ++ '&' :: back) :
    ∃ entity ∈ entities, entity.2 <+: '&' :: back := by
  induction text generalizing front with
  | nil => simp [escapeMarkup] at h
  | cons c text ih =>
    -- the ampersand stands behind the word for `c`, or at the end of it, or in it
    rw [escapeMarkup_cons, List.append_eq_append_iff] at h
    rcases h with ⟨later, -, hlater⟩ | ⟨word, hword, hback⟩
    · exact ih hlater
    · cases word with
      | nil =>
        have hfront : escapeMarkup text = [] ++ '&' :: back := hback.symm
        exact ih hfront
      | cons d name =>
        obtain ⟨rfl, rfl⟩ : '&' = d ∧ back = name ++ escapeMarkup text := by simpa using hback
        obtain ⟨entity, hentity, hname⟩ := exists_entity_of_escapeMarkupChar_eq hword
        exact ⟨entity, hentity, hname ▸ List.prefix_append ..⟩

theorem isEscaped_escapeMarkup (text : List Char) : IsEscaped (escapeMarkup text) where
  opening := notMem_escapeMarkup (.inl rfl) text
  closing := notMem_escapeMarkup (.inr (.inl rfl)) text
  quote := notMem_escapeMarkup (.inr (.inr rfl)) text
  ampersand _ _ := exists_entity_of_escapeMarkup_eq

def entityAt? (text : List Char) : Option (Char × List Char) :=
  entities.find? fun entity ↦ entity.2 <+: text

/-- Reads a text from left to right and puts characters in the places of their entities. -/
def readEntities : List Char → List Char
  | [] => []
  | c :: rest =>
    match entityAt? (c :: rest) with
    | some entity => entity.1 :: readEntities (rest.drop (entity.2.length - 1))
    | none => c :: readEntities rest
termination_by text => text.length

theorem entityAt?_append (h : entity ∈ entities) (rest : List Char) :
    entityAt? (entity.2 ++ rest) = some entity := by
  have hstarts : entity.2 <+: entity.2 ++ rest := List.prefix_append ..
  cases hfind : entityAt? (entity.2 ++ rest) with
  | none => exact absurd hstarts (by simpa using List.find?_eq_none.mp hfind entity h)
  | some other =>
    have hother : other ∈ entities := List.mem_of_find?_eq_some hfind
    have hfound : other.2 <+: entity.2 ++ rest := by simpa using List.find?_some hfind
    rcases List.prefix_or_prefix_of_prefix hfound hstarts with hle | hle
    · rw [eq_of_prefix_of_mem_entities other hother entity h hle]
    · rw [eq_of_prefix_of_mem_entities entity h other hother hle]

theorem readEntities_append (h : entity ∈ entities) (rest : List Char) :
    readEntities (entity.2 ++ rest) = entity.1 :: readEntities rest := by
  obtain ⟨name, hname, -⟩ := exists_eq_cons_of_mem_entities entity h
  have hfind := entityAt?_append h rest
  rw [hname, List.cons_append] at hfind ⊢
  rw [readEntities, hfind]
  simp [hname]

theorem readEntities_cons_of_ne (h : c ≠ '&') (rest : List Char) :
    readEntities (c :: rest) = c :: readEntities rest := by
  have hfind : entityAt? (c :: rest) = none := by
    refine List.find?_eq_none.mpr fun entity hentity ↦ ?_
    obtain ⟨name, hname, -⟩ := exists_eq_cons_of_mem_entities entity hentity
    simp [hname, List.cons_prefix_cons, h.symm]
  rw [readEntities, hfind]

theorem readEntities_escapeMarkup (text : List Char) : readEntities (escapeMarkup text) = text := by
  induction text with
  | nil => rw [escapeMarkup, List.flatMap_nil, readEntities]
  | cons c text ih =>
    rw [escapeMarkup_cons]
    rcases escapeMarkupChar_cases c with ⟨entity, hentity, hchar, hword⟩ | ⟨hne, hword⟩
    · rw [hword, readEntities_append hentity, hchar, ih]
    · rw [hword, List.singleton_append, readEntities_cons_of_ne hne, ih]

theorem escapeMarkup_readEntities {text : List Char} (h : IsEscaped text) :
    escapeMarkup (readEntities text) = text := by
  fun_induction readEntities text with
  | case1 => rfl
  | case2 c rest entity hfind ih =>
    have hentity : entity ∈ entities := List.mem_of_find?_eq_some hfind
    have hstarts : entity.2 <+: c :: rest := by simpa using List.find?_some hfind
    obtain ⟨later, hlater⟩ := hstarts
    obtain ⟨name, hname, -⟩ := exists_eq_cons_of_mem_entities entity hentity
    have hdrop : rest.drop (entity.2.length - 1) = later := by
      obtain ⟨-, rfl⟩ := List.cons.inj (hname ▸ hlater)
      simp [hname]
    rw [hdrop] at ih ⊢
    rw [escapeMarkup_cons, escapeMarkupChar_of_mem_entities entity hentity,
      ih (IsEscaped.of_append entity.2 (hlater ▸ h)), hlater]
  | case3 c rest hfind ih =>
    have hrest : IsEscaped rest := IsEscaped.of_append [c] h
    have hamp : c ≠ '&' := by
      rintro rfl
      obtain ⟨entity, hentity, hstarts⟩ := h.ampersand [] rest rfl
      exact absurd hstarts (by simpa using List.find?_eq_none.mp hfind entity hentity)
    have hopening : c ≠ '<' := (List.ne_of_not_mem_cons h.opening).symm
    have hclosing : c ≠ '>' := (List.ne_of_not_mem_cons h.closing).symm
    have hquote : c ≠ '"' := (List.ne_of_not_mem_cons h.quote).symm
    have hsame : escapeMarkupChar c = [c] := by
      rw [escapeMarkupChar, if_neg hamp, if_neg hopening, if_neg hclosing, if_neg hquote]
    rw [escapeMarkup_cons, hsame, ih hrest, List.singleton_append]

/-- The escaped texts are those that come out of escaping. -/
theorem isEscaped_iff {text : List Char} :
    IsEscaped text ↔ ∃ source, escapeMarkup source = text := by
  constructor
  · exact fun h ↦ ⟨readEntities text, escapeMarkup_readEntities h⟩
  · rintro ⟨source, rfl⟩
    exact isEscaped_escapeMarkup source

/-- Escaping is done by replacing one character after another. What comes out is escaped, and the
reader of entities gives back the text; so different texts are different when they are escaped. -/
theorem escapeMarkup_reversible :
    (∀ text, escapeMarkup text = replaceInTurn entities text ∧ IsEscaped (escapeMarkup text) ∧
      readEntities (escapeMarkup text) = text) ∧
      Function.Injective escapeMarkup := by
  refine ⟨fun text ↦ ?_, Function.LeftInverse.injective readEntities_escapeMarkup⟩
  exact ⟨escapeMarkup_eq_replaceInTurn text, isEscaped_escapeMarkup text,
    readEntities_escapeMarkup text⟩

/-- An entity that stands in the text is told from one that was written for a bracket. -/
theorem escapeMarkup_reversible_of_entity :
    escapeMarkup "&lt;<".toList = "&amp;lt;&lt;".toList ∧
      (∃ entity ∈ entities, entity.2 <+: "&lt;".toList) ∧
      readEntities "&amp;lt;&lt;".toList = "&lt;<".toList := by
  have hwritten : escapeMarkup "&lt;<".toList = "&amp;lt;&lt;".toList := by decide
  obtain ⟨-, hescaped, hread⟩ := escapeMarkup_reversible.1 "&lt;<".toList
  rw [hwritten] at hescaped hread
  exact ⟨hwritten, hescaped.ampersand "&amp;lt;".toList "lt;".toList (by decide), hread⟩

end Entities

end OpTrace
