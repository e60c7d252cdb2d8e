import Mathlib.Tactic

/-! Regular expressions as a backtracking matcher runs them: alternatives from left to right,
repetitions as long as they can be, the first match that works. Repetition is of a class of
symbols. Searching and substitution go through a text from the left. -/

/-- Patterns over symbols. `atEnd p` matches at the end of the text, and before a last symbol
in `p`. -/
inductive Regex (α : Type*) where
  | empty
  | one (p : α → Bool)
  | many (p : α → Bool)
  | seq (r s : Regex α)
  | alt (r s : Regex α)
  | atStart
  | atEnd (p : α → Bool)

namespace Regex

variable {α : Type*}

/-- What is left after as many symbols of a class as possible, then after one less, and so on. -/
def greedy (p : α → Bool) : List α → List (List α)
  | [] => [[]]
  | c :: cs => if p c then greedy p cs ++ [c :: cs] else [c :: cs]

/-- What the matches at the head of a text leave of it, in the order in which they are tried.
`start` tells whether this is the start of the whole text. -/
def rests : Regex α → (start : Bool) → List α → List (List α)
  | empty, _, t => [t]
  | one _, _, [] => []
  | one p, _, c :: cs => if p c then [cs] else []
  | many _, _, [] => []
  | many p, _, c :: cs => if p c then greedy p cs else []
  | seq r s, start, t =>
    (r.rests start t).flatMap fun t' => s.rests (start && t'.length == t.length) t'
  | alt r s, start, t => r.rests start t ++ s.rests start t
  | atStart, start, t => if start then [t] else []
  | atEnd _, _, [] => [[]]
  | atEnd p, _, [c] => if p c then [[c]] else []
  | atEnd _, _, _ => []

/-- A word, letter by letter. -/
def literal {β : Type*} (p : β → α → Bool) (w : List β) : Regex α :=
  w.foldr (fun b r => seq (one (p b)) r) empty

/-- Alternatives in their order. -/
def anyOf (rs : List (Regex α)) : Regex α := rs.foldr alt (one fun _ => false)

/-- What the match at the head of a text leaves of it. -/
def rest? (r : Regex α) (start : Bool) (t : List α) : Option (List α) := (r.rests start t).head?

/-- Whether there is a match anywhere in a text. -/
def found (r : Regex α) : (start : Bool) → List α → Bool
  | start, [] => (r.rest? start []).isSome
  | start, c :: cs => (r.rest? start (c :: cs)).isSome || r.found false cs

/-- Replace the leftmost matches that do not overlap; `skip` symbols belong to the last one. An
empty match is passed over. -/
def subFrom (r : Regex α) (repl : List α) : (skip : ℕ) → (start : Bool) → List α → List α
  | _, _, [] => []
  | skip + 1, _, _ :: cs => r.subFrom repl skip false cs
  | 0, start, c :: cs =>
    match r.rest? start (c :: cs) with
    | none => c :: r.subFrom repl 0 false cs
    | some t =>
      if t.length ≤ cs.length then repl ++ r.subFrom repl (cs.length - t.length) false cs
      else c :: r.subFrom repl 0 false cs

def sub (r : Regex α) (repl t : List α) : List α := r.subFrom repl 0 true t

theorem mem_greedy {p : α → Bool} {t t' : List α} :
    t' ∈ greedy p t ↔ ∃ w, t = w ++ t' ∧ ∀ c ∈ w, p c = true := by
  induction t with
  | nil =>
    simp only [greedy, List.mem_singleton]
    constructor
    · rintro rfl
      exact ⟨[], rfl, by simp⟩
    · rintro ⟨w, h, -⟩
      exact (List.append_eq_nil_iff.mp h.symm).2
  | cons c cs ih =>
    have hcons : (∃ w, c :: cs = w ++ t' ∧ ∀ x ∈ w, p x = true) ↔
        t' = c :: cs ∨ p c = true ∧ ∃ w, cs = w ++ t' ∧ ∀ x ∈ w, p x = true := by
      constructor
      · rintro ⟨w, h, hw⟩
        cases w with
        | nil => exact .inl h.symm
        | cons x w =>
          obtain ⟨rfl, rfl⟩ := List.cons.inj h
          obtain ⟨hx, hrest⟩ := List.forall_mem_cons.mp hw
          exact .inr ⟨hx, w, rfl, hrest⟩
      · rintro (rfl | ⟨hc, w, rfl, hw⟩)
        · exact ⟨[], rfl, by simp⟩
        · exact ⟨c :: w, rfl, List.forall_mem_cons.mpr ⟨hc, hw⟩⟩
    rw [hcons, greedy]
    split
    next hc =>
      rw [List.mem_append, List.mem_singleton, ih]
      exact Or.comm.trans (or_congr_right (iff_and_self.mpr fun _ => hc))
    next hc =>
      rw [List.mem_singleton]
      exact (or_iff_left fun h => hc h.1).symm

theorem mem_rests_one {p : α → Bool} {start : Bool} {t t' : List α} :
    t' ∈ (one p).rests start t ↔ ∃ c, t = c :: t' ∧ p c = true := by
  cases t with
  | nil => simp [rests]
  | cons c cs =>
    have hcons : (∃ c', c :: cs = c' :: t' ∧ p c' = true) ↔ p c = true ∧ t' = cs := by
      constructor
      · rintro ⟨_, h, hc⟩
        obtain ⟨rfl, rfl⟩ := List.cons.inj h
        exact ⟨hc, rfl⟩
      · rintro ⟨hc, rfl⟩
        exact ⟨c, rfl, hc⟩
    rw [hcons, rests]
    split
    next hc => simp [hc]
    next hc => simp [hc]

theorem mem_rests_many {p : α → Bool} {start : Bool} {t t' : List α} :
    t' ∈ (many p).rests start t ↔ ∃ w ≠ [], t = w ++ t' ∧ ∀ c ∈ w, p c = true := by
  cases t with
  | nil => simp [rests]
  | cons c cs =>
    simp only [rests]
    constructor
    · intro h
      split at h
      next hc =>
        obtain ⟨w, rfl, hw⟩ := mem_greedy.mp h
        exact ⟨c :: w, by simp, rfl, List.forall_mem_cons.mpr ⟨hc, hw⟩⟩
      next => simp at h
    · rintro ⟨w, hne, h, hw⟩
      cases w with
      | nil => contradiction
      | cons x w =>
        obtain ⟨rfl, rfl⟩ := List.cons.inj h
        obtain ⟨hc, hrest⟩ := List.forall_mem_cons.mp hw
        rw [if_pos hc]
        exact mem_greedy.mpr ⟨w, rfl, hrest⟩

/-- The pattern does not ask where in the text it is. -/
def Unanchored : Regex α → Prop
  | empty | one _ | many _ => True
  | seq r s | alt r s => r.Unanchored ∧ s.Unanchored
  | atStart | atEnd _ => False

theorem Unanchored.rests_eq {r : Regex α} (h : r.Unanchored) (start start' : Bool) (t : List α) :
    r.rests start t = r.rests start' t := by
  induction r generalizing start start' t with
  | empty => rfl
  | one p => cases t <;> rfl
  | many p => cases t <;> rfl
  | seq r s ihr ihs =>
    simp only [rests]
    rw [ihr h.1 start start']
    exact List.flatMap_congr fun t' _ => ihs h.2 _ _ t'
  | alt r s ihr ihs =>
    simp only [rests]
    rw [ihr h.1 start start', ihs h.2 start start']
  | atStart => exact h.elim
  | atEnd p => exact h.elim

theorem mem_rests_seq {r s : Regex α} (hs : s.Unanchored) {start : Bool} {t t' : List α} :
    t' ∈ (seq r s).rests start t ↔ ∃ u ∈ r.rests start t, t' ∈ s.rests false u := by
  simp only [rests, List.mem_flatMap]
  exact exists_congr fun u => and_congr_right fun _ => by rw [hs.rests_eq _ false]

theorem unanchored_literal {β : Type*} (p : β → α → Bool) (w : List β) :
    (literal p w).Unanchored := by
  induction w with
  | nil => trivial
  | cons b w ih => exact ⟨trivial, ih⟩

theorem mem_rests_literal [BEq α] [LawfulBEq α] {w : List α} {start : Bool} {t t' : List α} :
    t' ∈ (literal (· == ·) w).rests start t ↔ t = w ++ t' := by
  induction w generalizing start t with
  | nil => simp [literal, rests, eq_comm]
  | cons b w ih =>
    have hrest : (literal (· == ·) w).Unanchored := unanchored_literal _ w
    rw [literal, List.foldr_cons, ← literal, mem_rests_seq hrest]
    constructor
    · rintro ⟨u, hu, ht'⟩
      obtain ⟨c, rfl, hc⟩ := mem_rests_one.mp hu
      rw [ih.mp ht', ← eq_of_beq hc, List.cons_append]
    · rintro rfl
      exact ⟨w ++ t', mem_rests_one.mpr ⟨b, rfl, beq_self_eq_true b⟩, ih.mpr rfl⟩

/-- Where a text can match in one way only, that is the match. -/
theorem rest?_eq_some_iff {r : Regex α} {start : Bool} {t : List α}
    (hunique : ∀ u ∈ r.rests start t, ∀ v ∈ r.rests start t, u = v) {t' : List α} :
    r.rest? start t = some t' ↔ t' ∈ r.rests start t := by
  rw [rest?]
  constructor
  · exact List.mem_of_mem_head?
  · intro ht'
    have hne : r.rests start t ≠ [] := List.ne_nil_of_mem ht'
    rw [List.head?_eq_some_head hne, hunique _ (List.head_mem hne) _ ht']

theorem Unanchored.subFrom_eq {r : Regex α} (h : r.Unanchored) (repl : List α) (skip : ℕ)
    (start start' : Bool) (t : List α) :
    r.subFrom repl skip start t = r.subFrom repl skip start' t := by
  cases t with
  | nil => simp only [subFrom]
  | cons c cs =>
    cases skip with
    | succ skip => rfl
    | zero => simp only [subFrom, rest?, h.rests_eq start start']

theorem subFrom_skip (r : Regex α) (repl w t : List α) (start : Bool) :
    r.subFrom repl w.length start (w ++ t) =
      r.subFrom repl 0 (start && w.isEmpty) t := by
  induction w generalizing start with
  | nil => simp
  | cons c w ih => simp [subFrom, ih]

section Sub

variable {r : Regex α} (h : r.Unanchored) (repl : List α)
include h

theorem sub_cons_of_none {c : α} {cs : List α} (hnone : r.rest? true (c :: cs) = none) :
    r.sub repl (c :: cs) = c :: r.sub repl cs := by
  rw [sub, subFrom, hnone, sub, h.subFrom_eq repl 0 true false]

/-- A text up to which there is no match is kept. -/
theorem sub_append_of_none {w t : List α}
    (hnone : ∀ u v, w = u ++ v → v ≠ [] → r.rest? true (v ++ t) = none) :
    r.sub repl (w ++ t) = w ++ r.sub repl t := by
  induction w with
  | nil => rfl
  | cons c w ih =>
    have hhead : r.rest? true (c :: (w ++ t)) = none := hnone [] (c :: w) rfl (by simp)
    rw [List.cons_append, sub_cons_of_none h repl hhead, ih, List.cons_append]
    intro u v hw hv
    exact hnone (c :: u) v (by rw [hw]; rfl) hv

/-- A match at the head of a text is replaced. -/
theorem sub_of_match {w t : List α} (hw : w ≠ []) (hmatch : r.rest? true (w ++ t) = some t) :
    r.sub repl (w ++ t) = repl ++ r.sub repl t := by
  cases w with
  | nil => contradiction
  | cons c w =>
    have hle : t.length ≤ (w ++ t).length := by simp
    have hskip : (w ++ t).length - t.length = w.length := by simp
    rw [List.cons_append] at hmatch
    rw [List.cons_append, sub, subFrom, hmatch]
    simp only [hle, ↓reduceIte]
    rw [hskip, subFrom_skip, sub, h.subFrom_eq repl 0 _ true]

/-- A text that no match from its left reaches into is substituted by itself. -/
theorem sub_append {a t : List α}
    (hkept : ∀ u v, a = u ++ v → v ≠ [] →
      r.rest? true (v ++ t) = (r.rest? true v).map (· ++ t)) :
    r.sub repl (a ++ t) = r.sub repl a ++ r.sub repl t := by
  suffices hskip : ∀ skip ≤ a.length, r.subFrom repl skip true (a ++ t) =
      r.subFrom repl skip true a ++ r.sub repl t from hskip 0 (Nat.zero_le _)
  induction a with
  | nil =>
    intro skip hle
    obtain rfl := Nat.le_zero.mp hle
    rfl
  | cons c a ih =>
    have hrest := ih fun u v ha hv => hkept (c :: u) v (by rw [ha]; rfl) hv
    intro skip hle
    cases skip with
    | succ skip =>
      rw [List.cons_append, subFrom, subFrom, h.subFrom_eq repl skip false true,
        h.subFrom_eq repl skip false true, hrest skip (by simpa using hle)]
    | zero =>
      have hhead := hkept [] (c :: a) rfl (by simp)
      rw [List.cons_append] at hhead
      rw [List.cons_append, subFrom, subFrom, hhead]
      cases r.rest? true (c :: a) with
      | none =>
        simp only [Option.map_none]
        rw [h.subFrom_eq repl 0 false true, h.subFrom_eq repl 0 false true,
          hrest 0 (Nat.zero_le _), List.cons_append]
      | some u =>
        simp only [Option.map_some, List.length_append, Nat.add_le_add_iff_right,
          Nat.add_sub_add_right]
        split
        next hu =>
          rw [h.subFrom_eq repl _ false true, h.subFrom_eq repl (a.length - u.length) false true,
            hrest _ (Nat.sub_le _ _), List.append_assoc]
        next hu =>
          rw [h.subFrom_eq repl 0 false true, h.subFrom_eq repl 0 false true,
            hrest 0 (Nat.zero_le _), List.cons_append]

end Sub

end Regex
