import OpTrace.Proofs.CallTree.Sound

/-!
# Growth of sound trees

The steps by which a tree grows keep it sound. A new operation comes with links of its own only,
so it is below nothing and above nothing, and its first attachment is never refused. A later
attachment is made only where there is no path back.

What hangs in the tree hangs off its root: each operation but the first one has a parent that was
there before it, and is attached under it.
-/

namespace OpTrace

open Relation

namespace CallTree

/-- A tree without operations. -/
theorem sound_of_operations_eq_nil {tree : CallTree} (hoperations : tree.operations = [])
    (hnodes : tree.nodes = []) (hlinks : tree.links = []) : tree.Sound where
  nodup := by simp [opids, hoperations]
  numbered := by simp [hoperations, hnodes]
  shown := by simp [hoperations]
  inner := by simp [hoperations]
  sorted := by simp [hlinks]
  mirrored := by simp [hoperations]
  acyclic opid hcycle := by
    obtain ⟨_, ⟨upper, hupper, -⟩, -⟩ := TransGen.head'_iff.mp hcycle
    simp [hoperations] at hupper

namespace Sound

variable {tree : CallTree} {span : Span} {parent : Option OpId} {notes : Annotations}

theorem sound_report (h : tree.Sound) (findings : Findings) : (tree.report findings).Sound where
  nodup := h.nodup
  numbered := h.numbered
  shown operation hmem :=
    (h.shown operation hmem).imp fun _ hshows ↦ hshows.report findings
  inner := h.inner
  sorted := h.sorted
  mirrored := h.mirrored
  acyclic := h.acyclic

/-- A link between `init` nodes that is there after an operation was added was there before. -/
theorem mem_links_of_mem_links_addOperation (h : tree.Sound) {upper lower : Operation}
    (hupper : upper ∈ (tree.addOperation span parent notes).operations)
    (hlower : lower ∈ (tree.addOperation span parent notes).operations)
    (hlink : (upper.init, lower.init) ∈ (tree.addOperation span parent notes).links) :
    upper ∈ tree.operations ∧ lower ∈ tree.operations ∧
      (upper.init, lower.init) ∈ tree.links := by
  have hbound {operation : Operation} {id : NodeId} (hmem : operation ∈ tree.operations)
      (hid : id ∈ operation.nodeIds) : id < tree.nodes.length :=
    h.lt_length_iff.mpr ⟨operation, hmem, hid⟩
  have hfresh {operation : Operation}
      (hmem : operation ∈ (tree.addOperation span parent notes).operations) :
      operation ∈ tree.operations ∨ operation.init = tree.nodes.length := by
    rw [operations_addOperation] at hmem
    exact (List.mem_append.mp hmem).imp_right fun hlast ↦ by
      rw [List.mem_singleton.mp hlast, Operation.placed]
  rw [links_addOperation, List.mem_append] at hlink
  rcases hlink with hold | hnew
  · obtain ⟨⟨source, hsource, hid⟩, sink, hsink, hid'⟩ := h.exists_of_linked hold
    have hlt := hbound hsource hid
    have hlt' := hbound hsink hid'
    refine ⟨(hfresh hupper).resolve_right (Nat.ne_of_lt hlt), ?_, hold⟩
    exact (hfresh hlower).resolve_right (Nat.ne_of_lt hlt')
  · -- the links of the new operation enter its `finish` node and its intervals only
    have hlt : tree.nodes.length < lower.init := by
      rcases (ends_of_mem_links hnew).2 with hin | hlast
      · rw [Operation.placed, map_id_intervalNodes] at hin
        obtain ⟨i, -, hi⟩ := List.mem_map.mp hin
        exact hi ▸ Nat.lt_of_lt_of_le (Nat.lt_add_of_pos_right Nat.two_pos) (Nat.le_add_right _ i)
      · rw [hlast]
        exact Nat.lt_succ_self _
    rcases hfresh hlower with hold | heq
    · have hgt : lower.init < tree.nodes.length := hbound hold List.mem_cons_self
      exact absurd hlt (Nat.lt_asymm hgt)
    · exact absurd heq (Nat.ne_of_gt hlt)

/-- Adding an operation attaches nothing. -/
theorem attaches_of_attaches_addOperation (h : tree.Sound) {above below : OpId}
    (hattaches : (tree.addOperation span parent notes).Attaches above below) :
    tree.Attaches above below := by
  obtain ⟨upper, hupper, lower, hlower, heq, heq', hlink⟩ := hattaches
  obtain ⟨hupper, hlower, hlink⟩ := h.mem_links_of_mem_links_addOperation hupper hlower hlink
  exact ⟨upper, hupper, lower, hlower, heq, heq', hlink⟩

theorem sound_addOperation (h : tree.Sound) (hnew : span.opid ∉ tree.opids) :
    (tree.addOperation span parent notes).Sound where
  nodup := by
    rw [opids_addOperation, List.nodup_append]
    refine ⟨h.nodup, List.nodup_singleton _, fun opid hopid other hother heq ↦ hnew ?_⟩
    rw [← List.mem_singleton.mp hother, ← heq]
    exact hopid
  numbered := by
    rw [operations_addOperation, List.flatMap_append, h.numbered, range_length_addOperation,
      List.flatMap_singleton]
  shown := by
    intro operation hmem
    rw [operations_addOperation, List.mem_append, List.mem_singleton] at hmem
    rcases hmem with hold | rfl
    · obtain ⟨notes', hshows⟩ := h.shown operation hold
      exact ⟨notes', hshows.mono (nodes_prefix_addOperation tree span parent notes)⟩
    · exact ⟨notes, shows_addOperation tree span parent notes⟩
  inner := by
    intro operation hmem link hlink
    rw [operations_addOperation, List.mem_append, List.mem_singleton] at hmem
    rw [links_addOperation, List.mem_append]
    rcases hmem with hold | rfl
    · exact .inl (h.inner operation hold link hlink)
    · exact .inr hlink
  sorted := by
    intro link hlink
    simp only [links_addOperation, operations_addOperation, List.mem_append] at hlink ⊢
    rcases hlink with hold | hnew
    · rcases h.sorted link hold with ⟨operation, hmem, hinner⟩ |
        ⟨upper, hupper, lower, hlower, hinit, heq⟩
      · exact .inl ⟨operation, .inl hmem, hinner⟩
      · exact .inr ⟨upper, .inl hupper, lower, .inl hlower, .inl hinit, heq⟩
    · exact .inl ⟨_, .inr List.mem_cons_self, hnew⟩
  mirrored := by
    intro upper hupper lower hlower hlink
    obtain ⟨hupper, hlower, hlink⟩ := h.mem_links_of_mem_links_addOperation hupper hlower hlink
    rw [links_addOperation, List.mem_append]
    exact .inl (h.mirrored upper hupper lower hlower hlink)
  acyclic opid hcycle :=
    h.acyclic opid (hcycle.lift id fun _ _ ↦ h.attaches_of_attaches_addOperation)

variable {attached : CallTree} {upper lower : Operation}

/-- An attachment adds one pair to those that are attached. -/
theorem attaches_of_attachment (h : tree.Sound) (hupper : upper ∈ tree.operations)
    (hlower : lower ∈ tree.operations) (hattached : tree.Attachment upper lower attached)
    {above below : OpId} (hattaches : attached.Attaches above below) :
    tree.Attaches above below ∨ (above = upper.span.opid ∧ below = lower.span.opid) := by
  obtain ⟨source, hsource, sink, hsink, rfl, rfl, hlink⟩ := hattaches
  rw [hattached.operations] at hsource hsink
  rcases hattached.mem_links.mp hlink with hold | heq | heq
  · exact .inl ⟨source, hsource, sink, hsink, rfl, rfl, hold⟩
  · obtain ⟨heq, heq'⟩ := Prod.mk.inj heq
    rw [h.eq_of_init_eq hsource hupper heq, h.eq_of_init_eq hsink hlower heq']
    exact .inr ⟨rfl, rfl⟩
  · have hlevel := h.level_init hsource
    rw [(Prod.mk.inj heq).1, h.level_finish hlower] at hlevel
    exact absurd hlevel (by decide)

theorem sound_attachment (h : tree.Sound) (hupper : upper ∈ tree.operations)
    (hlower : lower ∈ tree.operations) (hattached : tree.Attachment upper lower attached)
    (hback : ¬ ReflTransGen tree.Attaches lower.span.opid upper.span.opid) : attached.Sound where
  nodup := by
    rw [opids, hattached.operations]
    exact h.nodup
  numbered := by
    rw [hattached.operations, hattached.nodes]
    exact h.numbered
  shown := by
    intro operation hmem
    rw [hattached.operations] at hmem
    obtain ⟨notes, hshows⟩ := h.shown operation hmem
    exact ⟨notes, hshows.mono (hattached.nodes ▸ List.prefix_rfl)⟩
  inner := by
    intro operation hmem link hlink
    rw [hattached.operations] at hmem
    exact hattached.mem_links.mpr (.inl (h.inner operation hmem link hlink))
  sorted := by
    intro link hlink
    have hinit : (upper.init, lower.init) ∈ attached.links :=
      hattached.mem_links.mpr (.inr (.inl rfl))
    rw [hattached.operations]
    rcases hattached.mem_links.mp hlink with hold | heq
    · rcases h.sorted link hold with hinner | ⟨above, habove, below, hbelow, hlink, heq⟩
      · exact .inl hinner
      · exact .inr ⟨above, habove, below, hbelow, hattached.mem_links.mpr (.inl hlink), heq⟩
    · exact .inr ⟨upper, hupper, lower, hlower, hinit, heq⟩
  mirrored := by
    intro above habove below hbelow hlink
    rw [hattached.operations] at habove hbelow
    rcases h.attaches_of_attachment hupper hlower hattached
      ⟨above, hattached.operations ▸ habove, below, hattached.operations ▸ hbelow, rfl, rfl,
        hlink⟩ with hold | ⟨heq, heq'⟩
    · have hmirror := h.mirrored above habove below hbelow ((h.attaches_iff habove hbelow).mp hold)
      exact hattached.mem_links.mpr (.inl hmirror)
    · rw [h.eq_of_opid_eq habove hupper heq, h.eq_of_opid_eq hbelow hlower heq']
      exact hattached.mem_links.mpr (.inr (.inr rfl))
  acyclic := not_cycle_of_extended h.acyclic hback
    fun _ _ ↦ h.attaches_of_attachment hupper hlower hattached

/-- What `attach?` gives in a sound tree: a refusal if the parent is below the child, and else an
attachment that keeps the tree sound. -/
theorem attach?_cases (h : tree.Sound) {above below : OpId} (habove : above ∈ tree.opids)
    (hbelow : below ∈ tree.opids) :
    (tree.attach? above below = none ∧ ReflTransGen tree.Attaches below above) ∨
    ∃ upper ∈ tree.operations, ∃ lower ∈ tree.operations, ∃ attached,
      upper.span.opid = above ∧ lower.span.opid = below ∧
      tree.attach? above below = some attached ∧ tree.Attachment upper lower attached ∧
      ¬ ReflTransGen tree.Attaches below above := by
  cases hattach : tree.attach? above below with
  | none =>
    obtain ⟨upper, hupper⟩ := exists_operation? habove
    obtain ⟨lower, hlower⟩ := exists_operation? hbelow
    have hreaches := reaches_of_attach?_eq_none hupper hlower hattach
    obtain ⟨hmem, rfl⟩ := mem_of_operation? hupper
    obtain ⟨hmem', rfl⟩ := mem_of_operation? hlower
    exact .inl ⟨rfl, (h.reaches_init_iff hmem' hmem).mp hreaches⟩
  | some attached =>
    obtain ⟨upper, lower, hupper, hlower, hreaches, hattached⟩ := attachment_of_attach? hattach
    obtain ⟨hmem, rfl⟩ := mem_of_operation? hupper
    obtain ⟨hmem', rfl⟩ := mem_of_operation? hlower
    refine .inr ⟨upper, hmem, lower, hmem', attached, rfl, rfl, rfl, hattached, fun hback ↦ ?_⟩
    rw [(h.reaches_init_iff hmem' hmem).mpr hback] at hreaches
    exact Bool.noConfusion hreaches

/-- The first attachment of a new operation is never refused. -/
theorem attach?_addOperation (h : tree.Sound) (parent : Option OpId) (notes : Annotations)
    {upper : Operation} (hupper : upper ∈ tree.operations) (hnew : span.opid ∉ tree.opids) :
    ∃ attached,
      (tree.addOperation span parent notes).attach? upper.span.opid span.opid = some attached ∧
      (tree.addOperation span parent notes).Attachment upper
        (.placed tree.nodes.length span parent notes) attached ∧ attached.Sound := by
  have hsound : (tree.addOperation span parent notes).Sound := h.sound_addOperation hnew
  have hmem : upper ∈ (tree.addOperation span parent notes).operations := by simp [hupper]
  have hmem' : Operation.placed tree.nodes.length span parent notes ∈
      (tree.addOperation span parent notes).operations := by simp
  have habove : upper.span.opid ∈ tree.opids := mem_opids_of_mem hupper
  rcases hsound.attach?_cases (mem_opids_of_mem hmem) (mem_opids_of_mem hmem') with
    ⟨-, hback⟩ | ⟨above, ha, below, hb, attached, heq, heq', hattach, hattached, hback⟩
  · -- nothing is attached under the new operation yet, so the parent would be the operation itself
    rcases ReflTransGen.cases_head hback with heq | ⟨next, hstep, -⟩
    · exact absurd (heq ▸ habove) hnew
    · obtain ⟨source, hsource, -, -, heq, -⟩ := h.attaches_of_attaches_addOperation hstep
      exact absurd (heq ▸ mem_opids_of_mem hsource) hnew
  · rw [hsound.eq_of_opid_eq ha hmem heq, hsound.eq_of_opid_eq hb hmem' heq'] at hattached
    exact ⟨attached, hattach, hattached, hsound.sound_attachment hmem hmem' hattached hback⟩

end Sound

/-- The first operation is the root, and each other one is attached under its parent, which came
before it. -/
structure Rooted (tree : CallTree) : Prop where
  top : ∃ operation, tree.operations[0]? = some operation ∧ operation.span.opid = tree.root ∧
    operation.parent = none
  under {place : Nat} {operation : Operation} : 0 < place →
    tree.operations[place]? = some operation → ∃ earlier upper, earlier < place ∧
      tree.operations[earlier]? = some upper ∧ operation.parent = some upper.span.opid ∧
      (upper.init, operation.init) ∈ tree.links

namespace Rooted

variable {tree attached : CallTree} {upper lower : Operation}

theorem root_mem (h : tree.Rooted) : tree.root ∈ tree.opids := by
  obtain ⟨operation, hget, hopid, -⟩ := h.top
  rw [← hopid]
  exact mem_opids_of_mem (List.mem_of_getElem? hget)

theorem rooted_report (h : tree.Rooted) (findings : Findings) : (tree.report findings).Rooted :=
  ⟨h.top, h.under⟩

theorem rooted_attachment (h : tree.Rooted) (hattached : tree.Attachment upper lower attached) :
    attached.Rooted where
  top := by
    rw [hattached.operations, hattached.root]
    exact h.top
  under := by
    intro place operation hplace hget
    rw [hattached.operations] at hget ⊢
    obtain ⟨earlier, above, hlt, hget', hparent, hlink⟩ := h.under hplace hget
    exact ⟨earlier, above, hlt, hget', hparent, hattached.mem_links.mpr (.inl hlink)⟩

/-- A tree stays rooted if a new operation is attached under the parent that it names. -/
theorem rooted_of_entered (h : tree.Rooted) {span : Span} {notes : Annotations}
    (hupper : upper ∈ tree.operations)
    (hattached : (tree.addOperation span (some upper.span.opid) notes).Attachment upper
      (.placed tree.nodes.length span (some upper.span.opid) notes) attached) :
    attached.Rooted where
  top := by
    obtain ⟨operation, hget, hopid, hparent⟩ := h.top
    have hlt := (List.getElem?_eq_some_iff.mp hget).1
    refine ⟨operation, ?_, by rw [hattached.root]; exact hopid, hparent⟩
    rw [hattached.operations, operations_addOperation, List.getElem?_append_left hlt, hget]
  under := by
    intro place operation hplace hget
    rw [hattached.operations, operations_addOperation] at hget
    rcases Nat.lt_or_ge place tree.operations.length with hlt | hge
    · rw [List.getElem?_append_left hlt] at hget
      obtain ⟨earlier, above, hbefore, hget', hparent, hlink⟩ := h.under hplace hget
      refine ⟨earlier, above, hbefore, ?_, hparent, hattached.mem_links.mpr (.inl ?_)⟩
      · rw [hattached.operations, operations_addOperation,
          List.getElem?_append_left (Nat.lt_trans hbefore hlt), hget']
      · rw [links_addOperation]
        exact List.mem_append_left _ hlink
    · rw [List.getElem?_append_right hge] at hget
      obtain rfl := List.mem_singleton.mp (List.mem_of_getElem? hget)
      obtain ⟨earlier, hbefore, hget'⟩ := List.mem_iff_getElem.mp hupper
      refine ⟨earlier, upper, Nat.lt_of_lt_of_le hbefore hge, ?_, rfl,
        hattached.mem_links.mpr (.inr (.inl rfl))⟩
      rw [hattached.operations, operations_addOperation, List.getElem?_append_left hbefore,
        List.getElem?_eq_getElem hbefore, hget']

end Rooted

end CallTree

end OpTrace
