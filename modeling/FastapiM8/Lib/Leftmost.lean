import FastapiM8.Lib.Regex

/-! The matches that a search from the left finds one after the other, and the gaps between
them. Substitution puts the replacement in the place of each match and keeps the gaps. -/

namespace Regex

variable {α : Type*}

/-- The pattern matches the whole word. -/
def Matches (r : Regex α) (w : List α) : Prop := [] ∈ r.rests true w

/-- No match begins in `w` when `t` follows it. -/
def Gap (r : Regex α) (w t : List α) : Prop :=
  ∀ u v, w = u ++ v → v ≠ [] → r.rest? true (v ++ t) = none

/-- The leftmost matches in a text that do not overlap, each with the gap before it, and the
tail after the last of them. -/
inductive Leftmost (r : Regex α) : List α → List (List α × List α) → List α → Prop
  | nil {tail : List α} (hgap : r.Gap tail []) : Leftmost r tail [] tail
  | cons {gap found t : List α} {pieces : List (List α × List α)} {tail : List α}
      (hgap : r.Gap gap (found ++ t)) (hne : found ≠ [])
      (hfound : r.rest? true (found ++ t) = some t) (h : Leftmost r t pieces tail) :
      Leftmost r (gap ++ (found ++ t)) ((gap, found) :: pieces) tail

/-- A text put together from its pieces. -/
def joined (pieces : List (List α × List α)) (tail : List α) : List α :=
  pieces.flatMap (fun piece => piece.1 ++ piece.2) ++ tail

/-- The pieces with every match replaced. -/
def replaced (repl : List α) (pieces : List (List α × List α)) : List (List α × List α) :=
  pieces.map fun piece => (piece.1, repl)

theorem joined_cons (gap found : List α) (pieces : List (List α × List α)) (tail : List α) :
    joined ((gap, found) :: pieces) tail = gap ++ (found ++ joined pieces tail) := by
  simp only [joined, List.flatMap_cons, List.append_assoc]

theorem replaced_replaced (repl : List α) (pieces : List (List α × List α)) :
    replaced repl (replaced repl pieces) = replaced repl pieces := by
  simp only [replaced, List.map_map]
  rfl

variable {r : Regex α} {t : List α} {pieces : List (List α × List α)} {tail : List α}

theorem gap_nil (t : List α) : r.Gap [] t := by
  intro u v h hv
  exact absurd (List.append_eq_nil_iff.mp h.symm).2 hv

theorem Gap.cons {c : α} {w : List α} (hnone : r.rest? true (c :: (w ++ t)) = none)
    (h : r.Gap w t) : r.Gap (c :: w) t := by
  intro u v hw hv
  cases u with
  | nil =>
    rw [List.nil_append] at hw
    rw [← hw]
    exact hnone
  | cons d u => exact h u v (List.cons.inj hw).2 hv

/-- The pieces make up the text. -/
theorem Leftmost.joined_eq (h : Leftmost r t pieces tail) : joined pieces tail = t := by
  induction h with
  | nil => rfl
  | cons _ _ _ _ ih => rw [joined_cons, ih]

/-- Substitution replaces the matches and nothing else. -/
theorem Leftmost.sub_eq (hr : r.Unanchored) (repl : List α) (h : Leftmost r t pieces tail) :
    r.sub repl t = joined (replaced repl pieces) tail := by
  induction h with
  | @nil tail hgap =>
    have htail := sub_append_of_none hr repl hgap
    rw [List.append_nil] at htail
    rw [htail]
    exact List.append_nil tail
  | @cons gap found t pieces tail hgap hne hfound _ ih =>
    rw [sub_append_of_none hr repl hgap, sub_of_match hr repl hne hfound, ih]
    exact (joined_cons gap repl _ tail).symm

/-- A pattern that takes something with every match has leftmost matches in every text. -/
theorem exists_leftmost
    (htakes : ∀ t t', r.rest? true t = some t' → ∃ w, w ≠ [] ∧ t = w ++ t') (t : List α) :
    ∃ pieces tail, Leftmost r t pieces tail := by
  induction hn : t.length using Nat.strong_induction_on generalizing t with
  | _ n ih =>
    cases t with
    | nil => exact ⟨[], [], .nil (gap_nil [])⟩
    | cons c cs =>
      cases hmatch : r.rest? true (c :: cs) with
      | some t' =>
        obtain ⟨w, hw, heq⟩ := htakes _ _ hmatch
        have hlt : t'.length < n := by
          rw [← hn, heq, List.length_append]
          have := List.length_pos_of_ne_nil hw
          omega
        obtain ⟨pieces, tail, h⟩ := ih _ hlt t' rfl
        rw [heq] at hmatch ⊢
        exact ⟨([], w) :: pieces, tail, .cons (gap_nil _) hw hmatch h⟩
      | none =>
        -- the first symbol joins the gap before the first match of the rest
        have hlt : cs.length < n := by
          rw [← hn, List.length_cons]
          omega
        obtain ⟨pieces, tail, h⟩ := ih _ hlt cs rfl
        cases h with
        | nil hgap =>
          rw [← List.append_nil cs] at hmatch
          exact ⟨[], c :: cs, .nil (hgap.cons hmatch)⟩
        | @cons gap found t pieces _ hgap hne hfound h =>
          exact ⟨(c :: gap, found) :: pieces, tail, .cons (hgap.cons hmatch) hne hfound h⟩

/-- Where no match begins inside another, every match in a text is one of the leftmost ones. -/
theorem Leftmost.mem_of_match
    (hinside : ∀ u v t, u ≠ [] → v ≠ [] → r.rest? true (u ++ v ++ t) = some t →
      r.rest? true (v ++ t) = none)
    (h : Leftmost r t pieces tail) {a m b : List α} (hm : m ≠ []) (ht : t = a ++ (m ++ b))
    (hmatch : r.rest? true (m ++ b) = some b) : ∃ gap, (gap, m) ∈ pieces := by
  induction h generalizing a with
  | nil hgap =>
    have hnone := hgap a (m ++ b) ht (List.append_ne_nil_of_left_ne_nil hm b)
    rw [List.append_nil, hmatch] at hnone
    contradiction
  | @cons gap found t pieces tail hgap hne hfound h ih =>
    have hlater : (∃ gap, (gap, m) ∈ pieces) → ∃ gap', (gap', m) ∈ (gap, found) :: pieces := by
      rintro ⟨gap', hmem⟩
      exact ⟨gap', List.mem_cons_of_mem _ hmem⟩
    have hhere : found ++ t = m ++ b → ∃ gap', (gap', m) ∈ (gap, found) :: pieces := by
      intro heq
      rw [heq, hmatch] at hfound
      obtain rfl := Option.some.inj hfound
      rw [List.append_cancel_right heq]
      exact ⟨gap, List.mem_cons_self⟩
    rcases List.append_eq_append_iff.mp ht with ⟨w, rfl, hw⟩ | ⟨w, hw, hrest⟩
    · cases w with
      | nil => exact hhere hw
      | cons c w =>
        rcases List.append_eq_append_iff.mp hw with ⟨x, -, hx⟩ | ⟨x, rfl, hx⟩
        · exact hlater (ih hx)
        · cases x with
          | nil =>
            have hnext : t = [] ++ (m ++ b) := hx.symm
            exact hlater (ih hnext)
          | cons d x =>
            have hnone := hinside (c :: w) (d :: x) t (by simp) (by simp) hfound
            rw [← hx, hmatch] at hnone
            contradiction
    · cases w with
      | nil => exact hhere hrest.symm
      | cons c w =>
        have hnone := hgap a (c :: w) hw (by simp)
        rw [← hrest, hmatch] at hnone
        contradiction

/-- Where the replacement is a match itself and hides no other, the replacements are the leftmost
matches of the substituted text. -/
theorem Leftmost.replace {repl : List α} (hne : repl ≠ [])
    (hrepl : ∀ t, r.rest? true (repl ++ t) = some t)
    (hgaps : ∀ w found t t', r.rest? true (found ++ t) = some t → r.Gap w (found ++ t) →
      r.Gap w (repl ++ t'))
    (h : Leftmost r t pieces tail) :
    Leftmost r (joined (replaced repl pieces) tail) (replaced repl pieces) tail := by
  induction h with
  | nil hgap => exact .nil hgap
  | @cons gap found t pieces tail hgap _ hfound _ ih =>
    have hpieces : replaced repl ((gap, found) :: pieces) = (gap, repl) :: replaced repl pieces :=
      rfl
    rw [hpieces, joined_cons]
    exact .cons (hgaps gap found t _ hfound hgap) hne (hrepl _) ih

end Regex
