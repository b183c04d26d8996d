import Mathlib.Data.List.Nodup
import Mathlib.Data.List.Basic

/-!
# Tables with a primary key and one nullable unique column

The two uniqueness constraints are fields of the table, so a row list that breaks
them cannot be built. Everything else is stated through `find?`: a table is used as
a finite partial function from keys to rows.
-/

set_option autoImplicit false

universe u v w

/-- Rows with distinct keys and, where the second column is not null, distinct values there. -/
structure KeyedTable {α : Type u} {κ : Type v} {ι : Type w} (key : α → κ) (alt : α → Option ι) where
  rows : List α
  keysNodup : (rows.map key).Nodup
  altsNodup : (rows.filterMap alt).Nodup

namespace KeyedTable

variable {α : Type u} {κ : Type v} {ι : Type w} {key : α → κ} {alt : α → Option ι}

def noAlt (_ : α) : Option Empty := none

def empty : KeyedTable key alt := ⟨[], List.nodup_nil, List.nodup_nil⟩

/-- Update every row satisfying `p`; neither unique column may change. -/
def update (t : KeyedTable key alt) (p : α → Bool) (f : α → α)
    (hkey : ∀ a, key (f a) = key a) (halt : ∀ a, alt (f a) = alt a) : KeyedTable key alt where
  rows := t.rows.map fun a => if p a then f a else a
  keysNodup := by
    have h : (t.rows.map fun a => if p a then f a else a).map key = t.rows.map key := by
      rw [List.map_map]
      refine List.map_congr_left fun a _ => ?_
      simp only [Function.comp_apply]
      split <;> simp [hkey]
    exact h ▸ t.keysNodup
  altsNodup := by
    have h : (t.rows.map fun a => if p a then f a else a).filterMap alt = t.rows.filterMap alt := by
      rw [List.filterMap_map]
      refine List.filterMap_congr fun a _ => ?_
      simp only [Function.comp_apply]
      split <;> simp [halt]
    exact h ▸ t.altsNodup

variable [DecidableEq κ] [DecidableEq ι]

def find? (t : KeyedTable key alt) (k : κ) : Option α :=
  t.rows.find? fun a => decide (key a = k)

def findAlt? (t : KeyedTable key alt) (i : ι) : Option α :=
  t.rows.find? fun a => decide (alt a = some i)

/-- Insert a row, or refuse it because it would break a uniqueness constraint. -/
def insert (t : KeyedTable key alt) (a : α) : Option (KeyedTable key alt) :=
  if h : key a ∉ t.rows.map key ∧ ∀ i ∈ alt a, i ∉ t.rows.filterMap alt then
    some {
      rows := t.rows ++ [a]
      keysNodup := by
        rw [List.map_append, List.map_singleton]
        exact List.nodup_append_comm.mp (List.nodup_cons.mpr ⟨h.1, t.keysNodup⟩)
      altsNodup := by
        rw [List.filterMap_append]
        cases hi : alt a with
        | none => simpa [List.filterMap_cons, hi] using t.altsNodup
        | some i =>
          simp only [List.filterMap_cons, hi, List.filterMap_nil]
          exact List.nodup_append_comm.mp (List.nodup_cons.mpr ⟨h.2 i (by simp [hi]), t.altsNodup⟩) }
  else none

def erase (t : KeyedTable key alt) (k : κ) : KeyedTable key alt where
  rows := t.rows.filter fun a => decide (key a ≠ k)
  keysNodup := t.keysNodup.sublist (List.filter_sublist.map key)
  altsNodup := t.altsNodup.sublist (List.filter_sublist.filterMap alt)

omit [DecidableEq κ] [DecidableEq ι] in
theorem eq_of_key_eq (t : KeyedTable key alt) {a b : α} (ha : a ∈ t.rows) (hb : b ∈ t.rows)
    (h : key a = key b) : a = b :=
  List.inj_on_of_nodup_map t.keysNodup ha hb h

omit [DecidableEq ι] in
theorem find?_eq_some_iff (t : KeyedTable key alt) {k : κ} {a : α} :
    t.find? k = some a ↔ a ∈ t.rows ∧ key a = k := by
  constructor
  · intro h
    exact ⟨List.mem_of_find?_eq_some h, by simpa using List.find?_some h⟩
  · rintro ⟨ha, hk⟩
    cases hf : t.find? k with
    | none =>
      have := List.find?_eq_none.mp hf a ha
      simp [hk] at this
    | some b =>
      have hb := List.mem_of_find?_eq_some hf
      have hkb : key b = k := by simpa using List.find?_some hf
      rw [t.eq_of_key_eq hb ha (hkb.trans hk.symm)]

omit [DecidableEq ι] in
theorem find?_eq_none_iff (t : KeyedTable key alt) {k : κ} :
    t.find? k = none ↔ ∀ a ∈ t.rows, key a ≠ k := by
  simp [find?]

omit [DecidableEq ι] in
theorem key_of_find? {t : KeyedTable key alt} {k : κ} {a : α} (h : t.find? k = some a) :
    key a = k := (t.find?_eq_some_iff.mp h).2

omit [DecidableEq ι] in
theorem mem_rows_iff (t : KeyedTable key alt) {a : α} : a ∈ t.rows ↔ t.find? (key a) = some a := by
  simp [find?_eq_some_iff]

omit [DecidableEq ι] in
theorem rows_perm (t : KeyedTable key alt) {l : List α} (hl : l.Nodup)
    (h : ∀ a, a ∈ l ↔ t.find? (key a) = some a) : t.rows.Perm l :=
  (List.perm_ext_iff_of_nodup (List.Nodup.of_map key t.keysNodup) hl).mpr
    fun a => t.mem_rows_iff.trans (h a).symm

omit [DecidableEq κ] [DecidableEq ι] in
theorem eq_of_alt_eq (t : KeyedTable key alt) {a b : α} {i : ι} (ha : a ∈ t.rows)
    (hb : b ∈ t.rows) (hai : alt a = some i) (hbi : alt b = some i) : a = b := by
  have hpure : ∀ l : List α, (l.filterMap alt).Nodup → a ∈ l → b ∈ l → a = b := by
    intro l
    induction l with
    | nil => simp
    | cons c l ih =>
      intro hn ha hb
      have hmem : ∀ d ∈ l, alt d = some i → i ∈ l.filterMap alt :=
        fun d hd hdi => List.mem_filterMap.mpr ⟨d, hd, hdi⟩
      have htail : (l.filterMap alt).Nodup := by
        cases hc : alt c <;> simp_all
      rcases List.mem_cons.mp ha with rfl | ha' <;> rcases List.mem_cons.mp hb with rfl | hb'
      · rfl
      · rw [List.filterMap_cons_some hai, List.nodup_cons] at hn
        exact absurd (hmem b hb' hbi) hn.1
      · rw [List.filterMap_cons_some hbi, List.nodup_cons] at hn
        exact absurd (hmem a ha' hai) hn.1
      · exact ih htail ha' hb'
  exact hpure t.rows t.altsNodup ha hb

omit [DecidableEq κ] in
theorem findAlt?_eq_some_iff (t : KeyedTable key alt) {i : ι} {a : α} :
    t.findAlt? i = some a ↔ a ∈ t.rows ∧ alt a = some i := by
  constructor
  · intro h
    exact ⟨List.mem_of_find?_eq_some h, by simpa using List.find?_some h⟩
  · rintro ⟨ha, hi⟩
    cases hf : t.findAlt? i with
    | none =>
      have := List.find?_eq_none.mp hf a ha
      simp [hi] at this
    | some b =>
      have hb := List.mem_of_find?_eq_some hf
      have hib : alt b = some i := by simpa using List.find?_some hf
      rw [t.eq_of_alt_eq hb ha hib hi]

omit [DecidableEq κ] in
theorem findAlt?_eq_none_iff (t : KeyedTable key alt) {i : ι} :
    t.findAlt? i = none ↔ ∀ a ∈ t.rows, alt a ≠ some i := by
  simp [findAlt?]

omit [DecidableEq ι] in
@[simp] theorem find?_empty (k : κ) : (empty : KeyedTable key alt).find? k = none := rfl

omit [DecidableEq ι] in
@[simp] theorem find?_update (t : KeyedTable key alt) (p : α → Bool) (f : α → α)
    (hkey : ∀ a, key (f a) = key a) (halt : ∀ a, alt (f a) = alt a) (k : κ) :
    (t.update p f hkey halt).find? k = (t.find? k).map fun a => if p a then f a else a := by
  simp only [find?, update, List.find?_map]
  congr 2
  funext a
  simp only [Function.comp_apply]
  split <;> simp [hkey]

theorem find?_insert {t t' : KeyedTable key alt} {a : α} (h : t.insert a = some t') (k : κ) :
    t'.find? k = if key a = k then some a else t.find? k := by
  unfold insert at h
  split at h
  · rename_i hn
    cases h
    simp only [find?, List.find?_append, List.find?_singleton, decide_eq_true_eq]
    split
    · rename_i hk
      have hno : t.rows.find? (fun b => decide (key b = k)) = none := by
        rw [List.find?_eq_none]
        intro b hb hbk
        exact hn.1 (List.mem_map.mpr ⟨b, hb, by simpa [hk] using hbk⟩)
      simp [hno]
    · simp
  · cases h

theorem find?_of_insert {t t' : KeyedTable key alt} {a : α} (h : t.insert a = some t') :
    t.find? (key a) = none := by
  unfold insert at h
  split at h
  · rename_i hn
    exact t.find?_eq_none_iff.mpr fun b hb hbk => hn.1 (List.mem_map.mpr ⟨b, hb, hbk⟩)
  · cases h

theorem insert_eq_none_iff (t : KeyedTable key alt) (a : α) :
    t.insert a = none ↔
      (t.find? (key a)).isSome ∨ ∃ i, alt a = some i ∧ (t.findAlt? i).isSome := by
  have hk : key a ∈ t.rows.map key ↔ (t.find? (key a)).isSome := by
    simp [find?, List.find?_isSome]
  have hi : ∀ i, i ∈ t.rows.filterMap alt ↔ (t.findAlt? i).isSome := by
    simp [findAlt?, List.find?_isSome, List.mem_filterMap]
  unfold insert
  split
  · rename_i h
    simp only [reduceCtorEq, false_iff, not_or, not_exists, not_and]
    exact ⟨fun hs => h.1 (hk.mpr hs), fun i hai hs => h.2 i hai ((hi i).mpr hs)⟩
  · rename_i h
    simp only [true_iff]
    by_contra hc
    rw [not_or, not_exists] at hc
    exact h ⟨fun hm => hc.1 (hk.mp hm), fun i hai hm => hc.2 i ⟨hai, (hi i).mp hm⟩⟩

omit [DecidableEq ι] in
@[simp] theorem find?_erase (t : KeyedTable key alt) (k k' : κ) :
    (t.erase k).find? k' = if k = k' then none else t.find? k' := by
  split
  · rename_i h
    subst h
    simp [find?_eq_none_iff, erase]
  · rename_i h
    cases hf : t.find? k' with
    | none =>
      rw [find?_eq_none_iff] at hf ⊢
      exact fun a ha => hf a (List.mem_of_mem_filter ha)
    | some a =>
      obtain ⟨ha, hk⟩ := t.find?_eq_some_iff.mp hf
      refine (find?_eq_some_iff _).mpr ⟨List.mem_filter.mpr ⟨ha, ?_⟩, hk⟩
      simpa [hk] using fun h' => h h'.symm

omit [DecidableEq ι] in
/-- At most one row has a given key, so a filter that pins the key counts zero or one. -/
theorem length_filter_key (t : KeyedTable key alt) (k : κ) (p : α → Bool) :
    (t.rows.filter fun a => decide (key a = k) && p a).length =
      if ∃ a, t.find? k = some a ∧ p a = true then 1 else 0 := by
  have hpure : ∀ l : List α, (l.map key).Nodup →
      (l.filter fun a => decide (key a = k) && p a).length =
        if ∃ a ∈ l, key a = k ∧ p a = true then 1 else 0 := by
    intro l
    induction l with
    | nil => simp
    | cons a l ih =>
      intro hn
      obtain ⟨hnot, hn⟩ := List.nodup_cons.mp hn
      have hrest : key a = k → ¬∃ b ∈ l, key b = k ∧ p b = true := by
        rintro hk ⟨b, hb, hbk, _⟩
        exact hnot (List.mem_map.mpr ⟨b, hb, hbk.trans hk.symm⟩)
      by_cases hk : key a = k
      · by_cases hp : p a = true <;> simp [hk, hp, ih hn, hrest hk]
      · simp [hk, ih hn]
  rw [hpure t.rows t.keysNodup]
  simp only [find?_eq_some_iff, and_assoc]

omit [DecidableEq ι] in
theorem filter_key (t : KeyedTable key alt) (k : κ) (p : α → Bool) :
    (t.rows.filter fun a => decide (key a = k) && p a) = ((t.find? k).filter p).toList := by
  have hpure : ∀ l : List α, (l.map key).Nodup → (l.filter fun a => decide (key a = k) && p a) =
      ((l.find? fun a => decide (key a = k)).filter p).toList := by
    intro l
    induction l with
    | nil => simp
    | cons a l ih =>
      intro hn
      obtain ⟨hnot, hn⟩ := List.nodup_cons.mp hn
      by_cases hk : key a = k
      · have hrest : (l.filter fun b => decide (key b = k) && p b) = [] := by
          refine List.filter_eq_nil_iff.mpr fun b hb hkb => hnot ?_
          simp only [Bool.and_eq_true, decide_eq_true_eq] at hkb
          exact List.mem_map.mpr ⟨b, hb, hkb.1.trans hk.symm⟩
        rw [List.find?_cons_of_pos (by simpa using hk)]
        by_cases hp : p a = true
        · rw [List.filter_cons_of_pos (by simp [hk, hp]), hrest, Option.filter_some, if_pos hp]
          rfl
        · rw [List.filter_cons_of_neg (by simp [hp]), hrest, Option.filter_some, if_neg hp]
          rfl
      · simp [hk, ih hn]
  exact hpure t.rows t.keysNodup

end KeyedTable
