import Mathlib.Logic.Relation
import OpTrace.CallTree.Reach

/-!
# Paths

A path goes along links. `reaches` decides whether there is a path between two nodes: what the
search finds lies on a path from where it started, and where it ends no link leads out of what it
has found.

Two facts about paths in any relation follow. A new pair closes a cycle only if there was a path
back, and a path does not end below its start if no step goes down.
-/

namespace OpTrace

open Relation

/-- There is a link from one node to another. -/
def Linked (links : List Link) (node target : Nat) : Prop := (node, target) ∈ links

theorem mem_newTargets_or_mem_seen (seen : List Nat) {nodes : List Nat} {node : Nat}
    (h : node ∈ nodes) :
    node ∈ seen ∨ node ∈ newTargets seen nodes := by
  induction nodes generalizing seen with
  | nil => simp at h
  | cons first rest ih =>
    simp only [newTargets]
    by_cases hfirst : first ∈ seen
    · rw [if_pos hfirst]
      rcases List.mem_cons.mp h with rfl | hrest
      · exact .inl hfirst
      · exact ih seen hrest
    · rw [if_neg hfirst]
      rcases List.mem_cons.mp h with rfl | hrest
      · exact .inr List.mem_cons_self
      · rcases ih (first :: seen) hrest with hseen | hnew
        · rcases List.mem_cons.mp hseen with rfl | hseen
          · exact .inr List.mem_cons_self
          · exact .inl hseen
        · exact .inr (List.mem_cons_of_mem _ hnew)

theorem mem_reachFrom_of_mem_seen {links : List Link} {seen frontier : List Nat} {node : Nat}
    (h : node ∈ seen) : node ∈ reachFrom links seen frontier := by
  fun_induction reachFrom links seen frontier with
  | case1 seen => exact h
  | case2 seen first frontier next ih => exact ih (List.mem_append_left _ h)

/-- Only nodes on paths are found. -/
theorem exists_path_of_mem_reachFrom {links : List Link} {seen frontier : List Nat} {target : Nat}
    (hfrontier : ∀ node ∈ frontier, node ∈ seen) (h : target ∈ reachFrom links seen frontier) :
    ∃ node ∈ seen, ReflTransGen (Linked links) node target := by
  fun_induction reachFrom links seen frontier with
  | case1 seen => exact ⟨target, h, .refl⟩
  | case2 seen first frontier next ih =>
    have hnext : ∀ node ∈ frontier ++ next, node ∈ seen ++ next := by
      intro node hnode
      rcases List.mem_append.mp hnode with hwaiting | hnew
      · exact List.mem_append_left _ (hfrontier node (List.mem_cons_of_mem _ hwaiting))
      · exact List.mem_append_right _ hnew
    obtain ⟨node, hnode, hpath⟩ := ih hnext h
    rcases List.mem_append.mp hnode with hseen | hnew
    · exact ⟨node, hseen, hpath⟩
    · have hlink : Linked links first node := mem_targetsOf.mp (mem_of_mem_newTargets hnew).1
      exact ⟨first, hfrontier first List.mem_cons_self, .head hlink hpath⟩

/-- No link leads out of what is found, if none led out of what was seen and looked at before. -/
theorem mem_reachFrom_of_linked {links : List Link} {seen frontier : List Nat} {node target : Nat}
    (hclosed : ∀ node ∈ seen, node ∉ frontier → ∀ target, Linked links node target → target ∈ seen)
    (hnode : node ∈ reachFrom links seen frontier) (hlink : Linked links node target) :
    target ∈ reachFrom links seen frontier := by
  fun_induction reachFrom links seen frontier with
  | case1 seen => exact hclosed node hnode List.not_mem_nil target hlink
  | case2 seen first frontier next ih =>
    refine ih (fun other hother hlooked target hlink ↦ ?_) hnode
    have hout : other ∉ next := fun hin ↦ hlooked (List.mem_append_right _ hin)
    have hseen : other ∈ seen := (List.mem_append.mp hother).resolve_right hout
    by_cases hfirst : other = first
    · have htarget := mem_targetsOf.mpr (hfirst ▸ hlink : Linked links first target)
      exact List.mem_append.mpr (mem_newTargets_or_mem_seen seen htarget)
    · refine List.mem_append_left _ (hclosed other hseen (fun hin ↦ ?_) target hlink)
      rcases List.mem_cons.mp hin with heq | hwaiting
      · exact hfirst heq
      · exact hlooked (List.mem_append_left _ hwaiting)

/-- The search decides whether there is a path. -/
theorem reaches_iff {links : List Link} {node target : Nat} :
    reaches links node target = true ↔ ReflTransGen (Linked links) node target := by
  rw [reaches, decide_eq_true_iff]
  constructor
  · intro h
    obtain ⟨start, hstart, hpath⟩ := exists_path_of_mem_reachFrom (fun _ h ↦ h) h
    rwa [List.mem_singleton.mp hstart] at hpath
  · intro hpath
    induction hpath with
    | refl => exact mem_reachFrom_of_mem_seen (List.mem_singleton_self node)
    | tail _ hlink ih =>
      exact mem_reachFrom_of_linked (fun other hother hout ↦ absurd hother hout) ih hlink

variable {α : Type} {r s : α → α → Prop}

/-- A path that may use one more pair either does without it or leads to its front and goes on
from its end. -/
theorem transGen_or_of_extended {a b first last : α}
    (hs : ∀ x y, s x y → r x y ∨ (x = first ∧ y = last)) (h : TransGen s a b) :
    TransGen r a b ∨ (ReflTransGen r a first ∧ ReflTransGen r last b) := by
  induction h with
  | single hstep =>
    rcases hs _ _ hstep with hold | ⟨rfl, rfl⟩
    · exact .inl (.single hold)
    · exact .inr ⟨.refl, .refl⟩
  | tail _ hstep ih =>
    rcases hs _ _ hstep with hold | ⟨rfl, rfl⟩
    · rcases ih with hpath | ⟨hto, hfrom⟩
      · exact .inl (hpath.tail hold)
      · exact .inr ⟨hto, hfrom.tail hold⟩
    · rcases ih with hpath | ⟨hto, -⟩
      · exact .inr ⟨hpath.to_reflTransGen, .refl⟩
      · exact .inr ⟨hto, .refl⟩

/-- One more pair closes no cycle if there is no path back from its end to its front. -/
theorem not_cycle_of_extended {first last : α} (hr : ∀ a, ¬ TransGen r a a)
    (hback : ¬ ReflTransGen r last first)
    (hs : ∀ x y, s x y → r x y ∨ (x = first ∧ y = last)) (a : α) : ¬ TransGen s a a := by
  intro h
  rcases transGen_or_of_extended hs h with hold | ⟨hto, hfrom⟩
  · exact hr a hold
  · exact hback (hfrom.trans hto)

variable {level : α → Nat}

theorem level_le_of_transGen (hlevel : ∀ x y, r x y → level x ≤ level y) {a b : α}
    (h : TransGen r a b) : level a ≤ level b := by
  induction h with
  | single hstep => exact hlevel _ _ hstep
  | tail _ hstep ih => exact Nat.le_trans ih (hlevel _ _ hstep)

end OpTrace
