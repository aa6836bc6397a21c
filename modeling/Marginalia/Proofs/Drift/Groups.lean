import Marginalia.Drift.Groups
import Marginalia.Proofs.Sequence

/-! Which members the groups of a list have, and which pairs of groups there are. -/

namespace Marginalia.Drift

variable {τ υ κ : Type}

theorem pairs_map (f : τ → υ) (items : List τ) :
    pairs (items.map f) = (pairs items).map fun p => (f p.1, f p.2) := by
  induction items with
  | nil => rfl
  | cons x rest ih =>
    rw [List.map_cons, pairs, ih, pairs, List.map_append, List.map_map, List.map_map]
    rfl

theorem rel_of_mem_pairs {R : τ → τ → Prop} {items : List τ} (h : items.Pairwise R) {p : τ × τ}
    (hp : p ∈ pairs items) : R p.1 p.2 := by
  induction h with
  | nil => simp [pairs] at hp
  | cons hx _ ih =>
    rcases List.mem_append.1 hp with hp | hp
    · obtain ⟨y, hy, rfl⟩ := List.mem_map.1 hp
      exact hx y hy
    · exact ih hp

theorem mem_pairs_or_swap {items : List τ} {x y : τ} (hx : x ∈ items) (hy : y ∈ items)
    (hne : x ≠ y) : (x, y) ∈ pairs items ∨ (y, x) ∈ pairs items := by
  induction items with
  | nil => simp at hx
  | cons z rest ih =>
    simp only [pairs, List.mem_append, List.mem_map, Prod.mk.injEq]
    rcases List.mem_cons.1 hx with rfl | hx <;> rcases List.mem_cons.1 hy with rfl | hy
    · exact absurd rfl hne
    · exact .inl (.inl ⟨y, hy, rfl, rfl⟩)
    · exact .inr (.inl ⟨x, ‹_›, rfl, rfl⟩)
    · rcases ih hx hy with h | h
      · exact .inl (.inr h)
      · exact .inr (.inr h)

section Grouped

variable [BEq κ] {key : τ → κ} {items : List τ}

/-- The members of a list that have a key. -/
def havingKey (key : τ → κ) (items : List τ) (k : κ) : List τ := items.filter fun x => key x == k

theorem pairs_groups : pairs ((grouped key items).map (·.2)) =
    (pairs (items.map key).eraseDups).map fun p =>
      (havingKey key items p.1, havingKey key items p.2) := by
  rw [grouped, List.map_map, ← pairs_map]
  rfl

theorem grouped_map (f : υ → τ) (items : List υ) :
    grouped key (items.map f) =
      (grouped (key ∘ f) items).map fun g => (g.1, g.2.map f) := by
  simp only [grouped, List.map_map, List.filter_map, Function.comp_def]

theorem find?_of_head?_havingKey_take {n : Nat} {k : κ} {x : τ}
    (h : (havingKey key (items.take n) k).head? = some x) :
    items.find? (fun y => key y == k) = some x := by
  rw [havingKey, List.head?_filter] at h
  rw [← List.take_append_drop n items, List.find?_append, h]
  rfl

variable [LawfulBEq κ]

theorem mem_havingKey {k : κ} {x : τ} : x ∈ havingKey key items k ↔ x ∈ items ∧ key x = k := by
  simp [havingKey]

theorem mem_grouped_iff {g : κ × List τ} :
    g ∈ grouped key items ↔ g.1 ∈ items.map key ∧ g.2 = havingKey key items g.1 := by
  rw [grouped, List.mem_map]
  constructor
  · rintro ⟨k, hk, rfl⟩
    exact ⟨List.mem_eraseDups.1 hk, rfl⟩
  · rintro ⟨hk, hg⟩
    exact ⟨g.1, List.mem_eraseDups.2 hk, Prod.ext rfl hg.symm⟩

/-- A pair of groups is one of different keys. -/
theorem exists_keys_of_mem_pairs {p : List τ × List τ}
    (h : p ∈ pairs ((grouped key items).map (·.2))) :
    ∃ k l, k ≠ l ∧ p = (havingKey key items k, havingKey key items l) := by
  rw [pairs_groups] at h
  obtain ⟨⟨k, l⟩, hkeys, rfl⟩ := List.mem_map.1 h
  exact ⟨k, l, rel_of_mem_pairs (nodup_eraseDups _) hkeys, rfl⟩

theorem mem_pairs_groups {k l : κ} (hk : k ∈ items.map key) (hl : l ∈ items.map key)
    (hne : k ≠ l) :
    (havingKey key items k, havingKey key items l) ∈ pairs ((grouped key items).map (·.2)) ∨
      (havingKey key items l, havingKey key items k) ∈ pairs ((grouped key items).map (·.2)) := by
  rw [pairs_groups]
  rcases mem_pairs_or_swap (List.mem_eraseDups.2 hk) (List.mem_eraseDups.2 hl) hne with h | h
  · exact .inl (List.mem_map.2 ⟨_, h, rfl⟩)
  · exact .inr (List.mem_map.2 ⟨_, h, rfl⟩)

end Grouped

end Marginalia.Drift
