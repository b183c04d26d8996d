import Mathlib.Data.List.Sort

/-!
# The first `k` by a key

A list sorted by a key, greatest first, and cut to `k` entries. Which entries with equal
keys make the cut is left to the order of the list; what is proved holds for every order.
-/

namespace TopK

set_option autoImplicit false

universe u v

variable {α : Type u} {K : Type v} [LinearOrder K] (key : α → K)

def sorted (xs : List α) : List α := xs.insertionSort fun a b => key b ≤ key a

def topK (k : Nat) (xs : List α) : List α := (sorted key xs).take k

theorem sorted_perm (xs : List α) : (sorted key xs).Perm xs := List.perm_insertionSort _ xs

theorem sorted_pairwise (xs : List α) : (sorted key xs).Pairwise fun a b => key b ≤ key a := by
  have hrefl : Std.Total fun a b : α => key b ≤ key a := ⟨fun a b => le_total (key b) (key a)⟩
  have htrans : IsTrans α fun a b : α => key b ≤ key a := ⟨fun _ _ _ hab hbc => le_trans hbc hab⟩
  exact List.pairwise_insertionSort _ xs

theorem mem_of_mem_topK {k : Nat} {xs : List α} {a : α} (h : a ∈ topK key k xs) : a ∈ xs :=
  (sorted_perm key xs).mem_iff.mp (List.mem_of_mem_take h)

theorem topK_nodup {k : Nat} {xs : List α} (h : xs.Nodup) : (topK key k xs).Nodup :=
  ((sorted_perm key xs).nodup_iff.mpr h).sublist (List.take_sublist k _)

theorem length_topK (k : Nat) (xs : List α) : (topK key k xs).length = min k xs.length := by
  rw [topK, List.length_take, (sorted_perm key xs).length_eq]

theorem key_le_of_dropped {k : Nat} {xs : List α} {a b : α} (ha : a ∈ topK key k xs)
    (hb : b ∈ (sorted key xs).drop k) : key b ≤ key a := by
  have hsplit := sorted_pairwise key xs
  rw [← List.take_append_drop k (sorted key xs), List.pairwise_append] at hsplit
  exact hsplit.2.2 a ha b hb

theorem kept_or_dropped {k : Nat} {xs : List α} {a : α} (h : a ∈ xs) :
    a ∈ topK key k xs ∨ a ∈ (sorted key xs).drop k := by
  have hmem := (sorted_perm key xs).mem_iff.mpr h
  rw [← List.take_append_drop k (sorted key xs), List.mem_append] at hmem
  exact hmem

theorem countP_split (k : Nat) (xs : List α) (p : α → Bool) :
    xs.countP p = (topK key k xs).countP p + ((sorted key xs).drop k).countP p := by
  rw [← (sorted_perm key xs).countP_eq p, topK, ← List.countP_append, List.take_append_drop]

theorem full_of_not_mem {k : Nat} {xs : List α} {b : α} (hb : b ∈ xs) (hnot : b ∉ topK key k xs) :
    (topK key k xs).length = k ∧ ∀ a ∈ topK key k xs, key b ≤ key a := by
  have hdrop := (kept_or_dropped key hb).resolve_left hnot
  refine ⟨?_, fun a ha => key_le_of_dropped key ha hdrop⟩
  have hpos : 0 < ((sorted key xs).drop k).length := List.length_pos_of_mem hdrop
  rw [List.length_drop, (sorted_perm key xs).length_eq] at hpos
  rw [length_topK]
  omega

/-- An entry is kept while at most `k` entries, itself among them, rank no lower. -/
theorem mem_topK_of_count {k : Nat} {xs : List α} {b : α} (hb : b ∈ xs)
    (hcount : xs.countP (fun a => decide (key b ≤ key a)) ≤ k) : b ∈ topK key k xs := by
  by_contra hnot
  obtain ⟨hfull, hle⟩ := full_of_not_mem key hb hnot
  have hkept : (topK key k xs).countP (fun a => decide (key b ≤ key a)) = k :=
    (List.countP_eq_length.mpr fun a ha => decide_eq_true (hle a ha)).trans hfull
  have hdropped : 0 < ((sorted key xs).drop k).countP fun a => decide (key b ≤ key a) :=
    List.countP_pos_iff.mpr ⟨b, (kept_or_dropped key hb).resolve_left hnot, by simp⟩
  rw [countP_split key k xs] at hcount
  omega

theorem not_mem_topK_of_count {k : Nat} {xs : List α} {b : α}
    (hcount : k ≤ xs.countP fun a => decide (key b < key a)) : b ∉ topK key k xs := by
  intro hb
  have hdropped : ((sorted key xs).drop k).countP (fun a => decide (key b < key a)) = 0 := by
    rw [List.countP_eq_zero]
    intro a ha hlt
    exact absurd (key_le_of_dropped key hb ha) (not_le.mpr (of_decide_eq_true hlt))
  have hself : (topK key k xs).countP (fun a => decide (key b < key a)) < (topK key k xs).length := by
    refine Nat.lt_of_le_of_ne List.countP_le_length fun hall => ?_
    exact lt_irrefl _ (of_decide_eq_true (List.countP_eq_length.mp hall b hb))
  have hlength := length_topK key k xs
  rw [countP_split key k xs, hdropped] at hcount
  omega

end TopK
