import FastapiM8.Health.Scrub
import FastapiM8.Lib.Leftmost

/-! One pass of the scrubber is enough: what it inserts is matched again as it stands, and makes
no new match with the text around it. -/
namespace FastapiM8

/-- The pattern matches credentials with a user and a password, and nothing else. -/
theorem matches_credInUrl {m : List Char} :
    credInUrl.Matches m ↔ ∃ user password, user ≠ [] ∧ IsUser user ∧ IsPassword password ∧
      m = credentials user password := by
  simp only [Regex.Matches, mem_rests_credInUrl, List.append_nil]

theorem rest?_of_matches {m : List Char} (h : credInUrl.Matches m) (t : List Char) :
    credInUrl.rest? true (m ++ t) = some t := by
  obtain ⟨user, password, hne, hu, hp, rfl⟩ := matches_credInUrl.mp h
  exact rest?_credInUrl.mpr ⟨user, password, hne, hu, hp, rfl⟩

theorem ne_nil_of_matches {m : List Char} (h : credInUrl.Matches m) : m ≠ [] := by
  obtain ⟨user, password, -, -, -, rfl⟩ := matches_credInUrl.mp h
  simp [credentials]

/-- The mask reads as credentials with a user and a password. -/
theorem matches_mask : credInUrl.Matches maskedCredentials := by
  have hu : IsUser "***".toList := List.all_eq_true.mp (by decide)
  have hp : IsPassword "***".toList := ⟨by decide, List.all_eq_true.mp (by decide)⟩
  exact matches_credInUrl.mpr ⟨"***".toList, "***".toList, by decide, hu, hp, by decide⟩

theorem match_takes {t t' : List Char} (h : credInUrl.rest? true t = some t') :
    ∃ w, w ≠ [] ∧ t = w ++ t' := by
  obtain ⟨user, password, -, -, -, rfl⟩ := rest?_credInUrl.mp h
  exact ⟨credentials user password, by simp [credentials], rfl⟩

/-- No match begins inside another one. -/
theorem rest?_inside_match {u v t : List Char} (hu : u ≠ []) (hv : v ≠ [])
    (h : credInUrl.rest? true (u ++ v ++ t) = some t) : credInUrl.rest? true (v ++ t) = none := by
  obtain ⟨user, password, -, huser, hp, heq⟩ := rest?_credInUrl.mp h
  exact rest?_inside_credentials huser hp (List.append_cancel_right heq).symm hu hv

/-- Which matches begin before `://` does not depend on what comes after it. -/
theorem gap_before_slashes {w t : List Char} :
    credInUrl.Gap w (':' :: '/' :: t) ↔ ∀ u v, w = u ++ v → v ≠ [] →
      credInUrl.rest? true v = none := by
  apply forall_congr'
  intro u
  apply forall_congr'
  intro v
  apply imp_congr_right
  intro _
  apply imp_congr_right
  intro hv
  rw [rest?_append_of_slashes hv, Option.map_eq_none_iff]

/-- The mask in the place of a match makes no new match with the text before it. -/
theorem gap_before_mask {w found t : List Char} (t' : List Char)
    (hfound : credInUrl.rest? true (found ++ t) = some t)
    (hgap : credInUrl.Gap w (found ++ t)) : credInUrl.Gap w (maskedCredentials ++ t') := by
  obtain ⟨user, password, -, -, -, heq⟩ := rest?_credInUrl.mp hfound
  rw [heq, credentials_append] at hgap
  exact gap_before_slashes.mpr (gap_before_slashes.mp hgap)

/-- The leftmost matches of a scrubbed text are the masks that were put into it. -/
theorem leftmost_scrubbed {t : List Char} {pieces : List (List Char × List Char)}
    {tail : List Char} (h : credInUrl.Leftmost t pieces tail) :
    credInUrl.Leftmost (credInUrl.sub maskedCredentials t)
      (Regex.replaced maskedCredentials pieces) tail := by
  rw [h.sub_eq unanchored_credInUrl]
  apply h.replace (ne_nil_of_matches matches_mask) (rest?_of_matches matches_mask)
  intro w found t t' hfound hgap
  exact gap_before_mask t' hfound hgap

/-- One pass of the scrubber leaves no match but its own mask, keeps the text outside of the
leftmost matches, and changes nothing when it is repeated. -/
theorem scrubText_once (text : String) :
    (∀ a m b : String, scrubText text = a ++ m ++ b → credInUrl.Matches m.toList →
      m = "://***:***@") ∧
    (∃ pieces tail, credInUrl.Leftmost text.toList pieces tail) ∧
    (∀ pieces tail, credInUrl.Leftmost text.toList pieces tail →
      text.toList = Regex.joined pieces tail ∧
        (scrubText text).toList =
          Regex.joined (Regex.replaced "://***:***@".toList pieces) tail) ∧
    scrubText (scrubText text) = scrubText text := by
  have hscrubbed : (scrubText text).toList = credInUrl.sub maskedCredentials text.toList := by
    rw [scrubText_eq, String.toList_ofList]
  obtain ⟨pieces, tail, hleft⟩ :=
    Regex.exists_leftmost (fun _ _ h => match_takes h) text.toList
  have hafter := leftmost_scrubbed hleft
  rw [← hscrubbed] at hafter
  refine ⟨?_, ⟨pieces, tail, hleft⟩, ?_, ?_⟩
  · intro a m b heq hmatch
    have hlist : (scrubText text).toList = a.toList ++ (m.toList ++ b.toList) := by
      rw [heq, String.toList_append, String.toList_append, List.append_assoc]
    obtain ⟨gap, hmem⟩ := hafter.mem_of_match (fun _ _ _ hu hv h => rest?_inside_match hu hv h)
      (ne_nil_of_matches hmatch) hlist (rest?_of_matches hmatch _)
    obtain ⟨piece, -, hpiece⟩ := List.mem_map.mp hmem
    exact String.toList_inj.mp (Prod.mk.inj hpiece).2.symm
  · intro pieces tail h
    rw [hscrubbed]
    exact ⟨h.joined_eq.symm, h.sub_eq unanchored_credInUrl maskedCredentials⟩
  · rw [scrubText_eq, hafter.sub_eq unanchored_credInUrl, Regex.replaced_replaced,
      hafter.joined_eq, String.ofList_toList]

end FastapiM8
