import Mathlib.Data.List.Nodup
import Mathlib.Data.List.Lookmap
import Mathlib.Tactic

/-! Insertion-ordered dictionaries: one binding per key, kept in the order in which the
keys were first bound. Rebinding a key keeps its position, as in the dictionaries of the
modelled language, so the head of the list is always the key tracked longest. -/

/-- A finite map that remembers the order in which its keys were inserted. -/
@[ext] structure OrderedDict (κ : Type*) (ν : Type*) where
  entries : List (κ × ν)
  nodup_keys : (entries.map Prod.fst).Nodup

namespace OrderedDict

variable {κ ν : Type*}

instance [DecidableEq κ] [DecidableEq ν] : DecidableEq (OrderedDict κ ν) := fun d d' =>
  decidable_of_iff (d.entries = d'.entries) OrderedDict.ext_iff.symm

def empty : OrderedDict κ ν := ⟨[], List.nodup_nil⟩

def keys (d : OrderedDict κ ν) : List κ := d.entries.map Prod.fst

def size (d : OrderedDict κ ν) : ℕ := d.entries.length

/-- The key that has been bound longest, `next(iter(d))` in the source language. -/
def first? (d : OrderedDict κ ν) : Option κ := d.keys.head?

theorem first?_mem {d : OrderedDict κ ν} {k : κ} (h : d.first? = some k) : k ∈ d.keys :=
  List.mem_of_mem_head? h

@[simp] theorem length_keys (d : OrderedDict κ ν) : d.keys.length = d.size := List.length_map _

/-- Keep the bindings that satisfy a predicate, in their order. -/
def filter (p : κ → ν → Bool) (d : OrderedDict κ ν) : OrderedDict κ ν where
  entries := d.entries.filter fun e => p e.1 e.2
  nodup_keys := d.nodup_keys.sublist ((List.filter_sublist).map Prod.fst)

/-- Change the values under their keys, `{k: f(k, v) for k, v in d.items()}`. -/
def map {μ : Type*} (f : κ → ν → μ) (d : OrderedDict κ ν) : OrderedDict κ μ where
  entries := d.entries.map fun e => (e.1, f e.1 e.2)
  nodup_keys := by
    rw [List.map_map]
    exact d.nodup_keys

theorem filter_filter (d : OrderedDict κ ν) (p q : κ → ν → Bool) :
    (d.filter q).filter p = d.filter fun k v => p k v && q k v := by
  apply OrderedDict.ext
  simp only [filter, List.filter_filter]

theorem filter_false (d : OrderedDict κ ν) : (d.filter fun _ _ => false) = .empty := by
  apply OrderedDict.ext
  exact List.filter_false _

/-- A filter and its complement share the bindings out. -/
theorem size_filter_add (d : OrderedDict κ ν) (p : κ → ν → Bool) :
    (d.filter p).size + (d.filter fun k v => !p k v).size = d.size :=
  (List.length_eq_length_filter_add _).symm

theorem size_filter_le (d : OrderedDict κ ν) (p : κ → ν → Bool) : (d.filter p).size ≤ d.size :=
  List.length_filter_le _ _

@[simp] theorem keys_map {μ : Type*} (f : κ → ν → μ) (d : OrderedDict κ ν) :
    (d.map f).keys = d.keys := by
  simp only [keys, map, List.map_map]
  rfl

variable [DecidableEq κ]

def get? (d : OrderedDict κ ν) (k : κ) : Option ν := d.entries.lookup k

/-- `del d[k]`, or `d.pop(k, None)` when the key may be absent. -/
def erase (d : OrderedDict κ ν) (k : κ) : OrderedDict κ ν := d.filter fun k' _ => k' ≠ k

private theorem map_rebind_fst (l : List (κ × ν)) (k : κ) (v : ν) :
    (l.map fun e => if e.1 = k then (k, v) else e).map Prod.fst = l.map Prod.fst := by
  rw [List.map_map]
  apply List.map_congr_left
  intro e _
  by_cases h : e.1 = k <;> simp [h]

/-- `d[k] = v`: rebind in place, or append a new key at the end. -/
def set (d : OrderedDict κ ν) (k : κ) (v : ν) : OrderedDict κ ν where
  entries := if k ∈ d.keys then d.entries.map fun e => if e.1 = k then (k, v) else e
    else d.entries ++ [(k, v)]
  nodup_keys := by
    split
    next => rw [map_rebind_fst]; exact d.nodup_keys
    next h =>
      rw [List.map_append, List.nodup_append]
      refine ⟨d.nodup_keys, by simp, ?_⟩
      rintro a ha b hb rfl
      simp only [List.map_cons, List.map_nil, List.mem_singleton] at hb
      exact h (hb ▸ ha)

/-- `d.setdefault(k, v)`, for its effect on `d`. -/
def setDefault (d : OrderedDict κ ν) (k : κ) (v : ν) : OrderedDict κ ν :=
  if k ∈ d.keys then d else d.set k v

theorem setDefault_of_mem {d : OrderedDict κ ν} {k : κ} (h : k ∈ d.keys) (v : ν) :
    d.setDefault k v = d := if_pos h

theorem map_set {μ : Type*} (f : κ → ν → μ) (d : OrderedDict κ ν) (k : κ) (v : ν) :
    (d.set k v).map f = (d.map f).set k (f k v) := by
  apply OrderedDict.ext
  by_cases hk : k ∈ d.keys
  · have hmap : k ∈ (d.map f).keys := by rwa [keys_map]
    simp only [set, hk, hmap, ↓reduceIte]
    simp only [map, List.map_map]
    apply List.map_congr_left
    intro e _
    by_cases he : e.1 = k <;> simp [he]
  · have hmap : k ∉ (d.map f).keys := by rwa [keys_map]
    simp only [set, hk, hmap, ↓reduceIte]
    simp only [map, List.map_append, List.map_cons, List.map_nil]

theorem erase_map {μ : Type*} (f : κ → ν → μ) (d : OrderedDict κ ν) (k : κ) :
    (d.map f).erase k = (d.erase k).map f := by
  apply OrderedDict.ext
  show List.filter _ (List.map _ d.entries) = List.map _ (List.filter _ d.entries)
  rw [List.filter_map]
  rfl

private theorem lookup_eq_some_iff {l : List (κ × ν)} (h : (l.map Prod.fst).Nodup) {k : κ} {v : ν} :
    l.lookup k = some v ↔ (k, v) ∈ l := by
  induction l with
  | nil => simp
  | cons e l ih =>
    rcases e with ⟨k', v'⟩
    rw [List.map_cons, List.nodup_cons] at h
    rw [List.lookup_cons]
    by_cases hk : k = k'
    · subst hk
      have hnot : (k, v) ∉ l := fun hm => h.1 (List.mem_map.mpr ⟨(k, v), hm, rfl⟩)
      simp [hnot, eq_comm]
    · have hb : (k == k') = false := by simp [hk]
      simp only [hb, List.mem_cons, Prod.mk.injEq, hk, false_and, false_or]
      exact ih h.2

/-- A lookup answers exactly with the bindings of the dictionary. -/
theorem get?_eq_some_iff {d : OrderedDict κ ν} {k : κ} {v : ν} :
    d.get? k = some v ↔ (k, v) ∈ d.entries := lookup_eq_some_iff d.nodup_keys

theorem mem_keys_iff {d : OrderedDict κ ν} {k : κ} : k ∈ d.keys ↔ ∃ v, d.get? k = some v := by
  simp only [get?_eq_some_iff, keys, List.mem_map, Prod.exists]
  constructor
  · rintro ⟨k', v, hv, rfl⟩
    exact ⟨v, hv⟩
  · rintro ⟨v, hv⟩
    exact ⟨k, v, hv, rfl⟩

theorem get?_eq_none_iff {d : OrderedDict κ ν} {k : κ} : d.get? k = none ↔ k ∉ d.keys := by
  rw [mem_keys_iff, Option.eq_none_iff_forall_ne_some]
  push Not
  rfl

@[simp] theorem get?_empty (k : κ) : (empty : OrderedDict κ ν).get? k = none := rfl

theorem get?_map {μ : Type*} (f : κ → ν → μ) (d : OrderedDict κ ν) (k : κ) :
    (d.map f).get? k = (d.get? k).map (f k) := by
  apply Option.ext
  intro w
  rw [get?_eq_some_iff, Option.map_eq_some_iff]
  simp only [map, List.mem_map, Prod.mk.injEq, Prod.exists, get?_eq_some_iff]
  constructor
  · rintro ⟨_, v, hv, rfl, rfl⟩
    exact ⟨v, hv, rfl⟩
  · rintro ⟨v, hv, rfl⟩
    exact ⟨k, v, hv, rfl, rfl⟩

theorem get?_filter (d : OrderedDict κ ν) (p : κ → ν → Bool) (k : κ) :
    (d.filter p).get? k = (d.get? k).filter (p k) := by
  apply Option.ext
  intro v
  rw [get?_eq_some_iff, Option.filter_eq_some_iff, get?_eq_some_iff]
  simp only [filter, List.mem_filter]

theorem get?_filter_eq_some {d : OrderedDict κ ν} {p : κ → ν → Bool} {k : κ} {v : ν} :
    (d.filter p).get? k = some v ↔ d.get? k = some v ∧ p k v = true := by
  rw [get?_filter, Option.filter_eq_some_iff]

theorem get?_erase (d : OrderedDict κ ν) (k k' : κ) :
    (d.erase k).get? k' = if k' = k then none else d.get? k' := by
  apply Option.ext
  intro v
  rw [erase, get?_filter_eq_some]
  by_cases h : k' = k <;> simp [h]

theorem get?_erase_of_ne (d : OrderedDict κ ν) {k k' : κ} (h : k' ≠ k) :
    (d.erase k).get? k' = d.get? k' := by rw [get?_erase, if_neg h]

theorem get?_set (d : OrderedDict κ ν) (k k' : κ) (v : ν) :
    (d.set k v).get? k' = if k' = k then some v else d.get? k' := by
  apply Option.ext
  intro w
  rw [get?_eq_some_iff]
  by_cases hk : k ∈ d.keys
  · obtain ⟨x, hx⟩ := mem_keys_iff.mp hk
    simp only [set, hk, ↓reduceIte, List.mem_map, Prod.exists]
    by_cases h : k' = k
    · subst h
      rw [if_pos rfl]
      constructor
      · rintro ⟨a, b, -, he⟩
        by_cases ha : a = k' <;> simp_all
      · rintro ⟨rfl⟩
        exact ⟨k', x, get?_eq_some_iff.mp hx, by simp⟩
    · rw [if_neg h, get?_eq_some_iff]
      constructor
      · rintro ⟨a, b, hab, he⟩
        by_cases ha : a = k
        · simp only [ha, ↓reduceIte, Prod.mk.injEq] at he
          exact absurd he.1.symm h
        · simp only [ha, ↓reduceIte, Prod.mk.injEq] at he
          obtain ⟨rfl, rfl⟩ := he
          exact hab
      · intro hw
        exact ⟨k', w, hw, by simp [h]⟩
  · simp only [set, hk, ↓reduceIte, List.mem_append, List.mem_singleton, Prod.mk.injEq]
    by_cases h : k' = k
    · subst h
      have hnone : (k', w) ∉ d.entries := fun hm => hk (List.mem_map.mpr ⟨_, hm, rfl⟩)
      simp [hnone, eq_comm]
    · simp [h, get?_eq_some_iff]

@[simp] theorem get?_set_self (d : OrderedDict κ ν) (k : κ) (v : ν) :
    (d.set k v).get? k = some v := by rw [get?_set, if_pos rfl]

theorem get?_set_of_ne (d : OrderedDict κ ν) {k k' : κ} (v : ν) (h : k' ≠ k) :
    (d.set k v).get? k' = d.get? k' := by rw [get?_set, if_neg h]

theorem set_inj {d : OrderedDict κ ν} {k : κ} {v w : ν} : d.set k v = d.set k w ↔ v = w := by
  constructor
  · intro h
    have hget : (d.set k v).get? k = (d.set k w).get? k := by rw [h]
    rw [get?_set_self, get?_set_self] at hget
    exact Option.some.inj hget
  · rintro rfl
    rfl

/-- Which keys a dictionary has after `d[k] = v` depends on its keys alone. -/
theorem keys_set (d : OrderedDict κ ν) (k : κ) (v : ν) :
    (d.set k v).keys = if k ∈ d.keys then d.keys else d.keys ++ [k] := by
  have he : (d.set k v).keys = (if k ∈ d.keys then
      d.entries.map fun e => if e.1 = k then (k, v) else e else d.entries ++ [(k, v)]).map
        Prod.fst := rfl
  rw [he]
  split
  · exact map_rebind_fst _ k v
  · simp [keys]

theorem keys_erase (d : OrderedDict κ ν) (k : κ) :
    (d.erase k).keys = d.keys.filter fun k' => k' ≠ k := by
  simp only [keys, erase, filter, List.filter_map]
  rfl

theorem size_erase_add_one {d : OrderedDict κ ν} {k : κ} (h : k ∈ d.keys) :
    (d.erase k).size + 1 = d.size := by
  have hnodup : d.keys.Nodup := d.nodup_keys
  have hkeys : (d.erase k).keys = d.keys.erase k := by
    rw [keys_erase, hnodup.erase_eq_filter]
    apply List.filter_congr
    intro k' _
    by_cases hk : k' = k <;> simp [hk]
  have hpos : 0 < d.keys.length := List.length_pos_of_mem h
  rw [← length_keys, hkeys, List.length_erase_of_mem h, ← length_keys]
  omega

theorem size_set (d : OrderedDict κ ν) (k : κ) (v : ν) :
    (d.set k v).size = if k ∈ d.keys then d.size else d.size + 1 := by
  rw [← length_keys, keys_set]
  split <;> simp

theorem first?_set_of_ne_nil {d : OrderedDict κ ν} {k₀ : κ} (h : d.first? = some k₀) (k : κ)
    (v : ν) : (d.set k v).first? = some k₀ := by
  rw [first?, keys_set]
  rw [first?] at h
  split
  · exact h
  · rw [List.head?_append, h]
    rfl

theorem card_keys (d : OrderedDict κ ν) : d.keys.toFinset.card = d.size := by
  have hnodup : d.keys.Nodup := d.nodup_keys
  rw [List.toFinset_card_of_nodup hnodup, length_keys]

/-- Filters of one dictionary that answer every lookup alike are the same dictionary. -/
theorem filter_congr {d : OrderedDict κ ν} {p q : κ → ν → Bool}
    (h : ∀ k v, d.get? k = some v → p k v = q k v) : d.filter p = d.filter q := by
  apply OrderedDict.ext
  apply List.filter_congr
  rintro ⟨k, v⟩ he
  exact h k v (get?_eq_some_iff.mpr he)

theorem filter_eq_self {d : OrderedDict κ ν} {p : κ → ν → Bool}
    (h : ∀ k v, d.get? k = some v → p k v = true) : d.filter p = d := by
  apply OrderedDict.ext
  simp only [filter, List.filter_eq_self, Prod.forall]
  exact fun k v he => h k v (get?_eq_some_iff.mpr he)

end OrderedDict
