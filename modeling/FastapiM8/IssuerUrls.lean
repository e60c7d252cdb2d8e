import FastapiM8.ApiKey.Client

/-! The URLs of an issuer: from the one introspection URL that is configured, the base that its
private endpoints share, in whichever form the URL is written. -/
namespace FastapiM8

/-- What is left when an element is taken off the end of a list as often as it stands there. -/
theorem rdropWhile_eq_iff {α : Type*} [DecidableEq α] {c : α} {l m : List α} :
    l.rdropWhile (fun x => decide (x = c)) = m ↔
      m.getLast? ≠ some c ∧ ∃ n, l = m ++ List.replicate n c := by
  constructor
  · rintro rfl
    constructor
    · intro hlast
      obtain ⟨ys, hys⟩ := List.getLast?_eq_some_iff.mp hlast
      have hnot := List.rdropWhile_last_not (fun x => decide (x = c)) l (by simp [hys])
      simp [hys] at hnot
    · have hall : ∀ x ∈ l.rtakeWhile (fun x => decide (x = c)), x = c := by
        intro x hx
        have hc := List.mem_rtakeWhile_imp hx
        exact of_decide_eq_true hc
      refine ⟨(l.rtakeWhile fun x => decide (x = c)).length, ?_⟩
      rw [← List.eq_replicate_of_mem hall, List.rdropWhile_append_rtakeWhile]
  · rintro ⟨hlast, n, rfl⟩
    induction n with
    | zero =>
      rw [List.replicate_zero, List.append_nil, List.rdropWhile_eq_self_iff]
      intro hne hc
      rw [List.getLast?_eq_some_getLast hne, of_decide_eq_true hc] at hlast
      contradiction
    | succ n ih =>
      rw [List.replicate_succ', ← List.append_assoc, List.rdropWhile_concat_pos _ _ _ (by simp), ih]

def slashes (n : ℕ) : String := String.ofList (List.replicate n '/')

/-- A URL that does not end with a slash. -/
def Trimmed (url : String) : Prop := url.toList.getLast? ≠ some '/'

/-- The ways to write the introspection URL of the issuer with the given base: its JTI-status
endpoint, or the base itself. -/
inductive IntrospectionUrl (base : String) : String → Prop
  | endpoint (m n : ℕ) : IntrospectionUrl base (base ++ slashes m ++ jtiStatusSuffix ++ slashes n)
  | base (n : ℕ) (h : ¬ jtiStatusSuffix.toList <:+ base.toList) :
      IntrospectionUrl base (base ++ slashes n)

theorem rstripSlash_eq_iff {url base : String} :
    rstripSlash url = base ↔ Trimmed base ∧ ∃ n, url = base ++ slashes n := by
  have hlist : rstripSlash url = base ↔
      url.toList.rdropWhile (fun x => decide (x = '/')) = base.toList := by
    rw [rstripSlash, ← String.toList_inj, String.toList_ofList]
  rw [hlist, rdropWhile_eq_iff]
  simp only [Trimmed, slashes, ← String.toList_inj, String.toList_append, String.toList_ofList]

/-- The part of an introspection URL that the derived URLs share. -/
def issuerBase (introspectionUrl : String) : String :=
  let url := rstripSlash introspectionUrl
  let base :=
    if jtiStatusSuffix.toList.isSuffixOf url.toList then
      String.ofList (url.toList.take (url.length - jtiStatusSuffix.length))
    else url
  rstripSlash base

theorem deriveServiceTokenUrl_eq (url : String) :
    deriveServiceTokenUrl url = issuerBase url ++ serviceTokenSuffix := rfl

theorem deriveApiKeyIntrospectionUrl_eq (url : String) :
    deriveApiKeyIntrospectionUrl url = issuerBase url ++ apiKeyIntrospectSuffix := rfl

/-- `url.removesuffix` of the endpoint. -/
theorem issuerBase_of_endpoint {url front : String}
    (h : rstripSlash url = front ++ jtiStatusSuffix) : issuerBase url = rstripSlash front := by
  have hsuffix : jtiStatusSuffix.toList.isSuffixOf (front ++ jtiStatusSuffix).toList = true := by
    rw [List.isSuffixOf_iff_suffix, String.toList_append]
    exact List.suffix_append _ _
  have htake : (front ++ jtiStatusSuffix).toList.take
      ((front ++ jtiStatusSuffix).length - jtiStatusSuffix.length) = front.toList := by
    rw [String.length_append, Nat.add_sub_cancel, String.toList_append, ← String.length_toList,
      List.take_left]
  unfold issuerBase
  rw [h]
  simp only [hsuffix, htake, ↓reduceIte, String.ofList_toList]

theorem issuerBase_of_base {url base : String} (h : rstripSlash url = base)
    (hbase : ¬ jtiStatusSuffix.toList <:+ base.toList) : issuerBase url = rstripSlash base := by
  rw [← List.isSuffixOf_iff_suffix, Bool.not_eq_true] at hbase
  unfold issuerBase
  rw [h]
  simp only [hbase, Bool.false_eq_true, ↓reduceIte]

/-- However the URL is written, what is left of it is the base. -/
theorem IntrospectionUrl.issuerBase_eq {base url : String} (hbase : Trimmed base)
    (h : IntrospectionUrl base url) : issuerBase url = base := by
  cases h with
  | endpoint m n =>
    have hurl : rstripSlash (base ++ slashes m ++ jtiStatusSuffix ++ slashes n) =
        base ++ slashes m ++ jtiStatusSuffix := by
      refine rstripSlash_eq_iff.mpr ⟨?_, n, rfl⟩
      have hlast : jtiStatusSuffix.toList.getLast? = some 's' := by decide
      rw [Trimmed, String.toList_append, List.getLast?_append, hlast]
      simp
    rw [issuerBase_of_endpoint hurl]
    exact rstripSlash_eq_iff.mpr ⟨hbase, m, rfl⟩
  | base n h =>
    have hurl : rstripSlash (base ++ slashes n) = base := rstripSlash_eq_iff.mpr ⟨hbase, n, rfl⟩
    rw [issuerBase_of_base hurl h]
    exact rstripSlash_eq_iff.mpr ⟨hbase, 0, String.append_empty.symm⟩

/-- Every URL is the introspection URL of the issuer with what is left of it. -/
theorem introspectionUrl_issuerBase (url : String) :
    Trimmed (issuerBase url) ∧ IntrospectionUrl (issuerBase url) url := by
  obtain ⟨htrimmed, n, hurl⟩ := rstripSlash_eq_iff.mp (rfl : rstripSlash url = rstripSlash url)
  by_cases hsuffix : jtiStatusSuffix.toList <:+ (rstripSlash url).toList
  · obtain ⟨front, hfront⟩ := hsuffix
    have heq : rstripSlash url = String.ofList front ++ jtiStatusSuffix := by
      rw [← String.toList_inj, String.toList_append, String.toList_ofList, hfront]
    rw [issuerBase_of_endpoint heq]
    obtain ⟨hbase, m, hm⟩ := rstripSlash_eq_iff.mp
      (rfl : rstripSlash (String.ofList front) = rstripSlash (String.ofList front))
    refine ⟨hbase, ?_⟩
    have hform : IntrospectionUrl (rstripSlash (String.ofList front)) _ := .endpoint m n
    rw [← hm, ← heq, ← hurl] at hform
    exact hform
  · have hsame : rstripSlash (rstripSlash url) = rstripSlash url :=
      rstripSlash_eq_iff.mpr ⟨htrimmed, 0, String.append_empty.symm⟩
    rw [issuerBase_of_base rfl hsuffix, hsame]
    refine ⟨htrimmed, ?_⟩
    have hform : IntrospectionUrl (rstripSlash url) _ := .base n hsuffix
    rw [← hurl] at hform
    exact hform

/-- Every URL that can be configured is the introspection URL of exactly one base, and the derived
URLs are the endpoints of this base, in whichever form the URL was written. -/
theorem derived_urls_share_base (url : String) :
    (∃! base, Trimmed base ∧ IntrospectionUrl base url) ∧
      ∀ base, Trimmed base → IntrospectionUrl base url →
        deriveServiceTokenUrl url = base ++ serviceTokenSuffix ∧
          deriveApiKeyIntrospectionUrl url = base ++ apiKeyIntrospectSuffix := by
  obtain ⟨hbase, hform⟩ := introspectionUrl_issuerBase url
  constructor
  · refine ⟨issuerBase url, ⟨hbase, hform⟩, ?_⟩
    rintro base ⟨htrimmed, hurl⟩
    exact (hurl.issuerBase_eq htrimmed).symm
  · intro base htrimmed hurl
    rw [deriveServiceTokenUrl_eq, deriveApiKeyIntrospectionUrl_eq, hurl.issuerBase_eq htrimmed]
    exact ⟨rfl, rfl⟩

end FastapiM8
