import Mathlib.Data.Set.BooleanAlgebra
import Mathlib.Order.CompletePartialOrder
import Mathlib.Data.List.Pairwise

/-!
# Reserving sets of cells in a map

An allocator keeps a map of the cells that are taken and hands out sets of cells. `Reserved entry
map grants` is what such an allocator has to keep from its first grant to its last: nothing is
handed out twice, nothing that was taken on entry is handed out, and the map has it all. A grant
whose cells are free when it is made and set afterwards keeps it (`Reserved.grant`).
-/

variable {α : Type*}

/-- The map has what was taken on entry and all grants; no two grants meet, and none meets what was
taken on entry. -/
structure Reserved (entry map : Set α) (grants : List (Set α)) : Prop where
  entry_subset : entry ⊆ map
  grant_subset : ∀ g ∈ grants, g ⊆ map
  disjoint_entry : ∀ g ∈ grants, Disjoint g entry
  pairwise : grants.Pairwise Disjoint

namespace Reserved

variable {entry map map' g : Set α} {grants : List (Set α)}

theorem nil (entry : Set α) : Reserved entry entry [] where
  entry_subset := subset_rfl
  grant_subset := by simp
  disjoint_entry := by simp
  pairwise := .nil

/-- **A grant of free cells**, set in the map. -/
theorem grant (h : Reserved entry map grants) (hfree : Disjoint g map) (hmap : map ⊆ map')
    (hset : g ⊆ map') : Reserved entry map' (g :: grants) where
  entry_subset := h.entry_subset.trans hmap
  grant_subset := by
    intro a ha
    rcases List.mem_cons.1 ha with rfl | ha
    · exact hset
    · exact (h.grant_subset a ha).trans hmap
  disjoint_entry := by
    intro a ha
    rcases List.mem_cons.1 ha with rfl | ha
    · exact hfree.mono_right h.entry_subset
    · exact h.disjoint_entry a ha
  pairwise := .cons (fun a ha ↦ hfree.mono_right (h.grant_subset a ha)) h.pairwise

/-- Before the last grant, if nothing else was set with it. -/
theorem before_grant (h : Reserved entry map' (g :: grants)) (hentry : entry ⊆ map)
    (hset : map' ⊆ map ∪ g) : Reserved entry map grants where
  entry_subset := hentry
  grant_subset a ha c hc := by
    rcases hset (h.grant_subset a (List.mem_cons_of_mem _ ha) hc) with hmap | hg
    · exact hmap
    · exact absurd hc (Set.disjoint_left.1 ((List.pairwise_cons.1 h.pairwise).1 a ha) hg)
  disjoint_entry a ha := h.disjoint_entry a (List.mem_cons_of_mem _ ha)
  pairwise := (List.pairwise_cons.1 h.pairwise).2

/-- The last grant was of free cells, if nothing but grants has been set since the entry. -/
theorem disjoint_last (h : Reserved entry map' (g :: grants))
    (honly : ∀ c ∈ map, c ∈ entry ∨ ∃ a ∈ grants, c ∈ a) : Disjoint g map := by
  rw [Set.disjoint_left]
  intro c hc hmap
  rcases honly c hmap with he | ⟨a, ha, hca⟩
  · exact Set.disjoint_left.1 (h.disjoint_entry g (List.mem_cons_self ..)) hc he
  · exact Set.disjoint_left.1 ((List.pairwise_cons.1 h.pairwise).1 a ha) hc hca

end Reserved
