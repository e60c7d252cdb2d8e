import FastapiM8.Health.Scrub

/-! Which secrets of nested metadata a health report shows: metadata that differ in secrets only,
at any depth, are reported alike when they agree below the top level. -/
namespace FastapiM8

/-- Two texts that differ in one password of a URL that has a user. -/
inductive PasswordStep : String → String → Prop
  | replace {user p q : String} (a b : String) (hne : user ≠ "") (hu : IsUser user.toList)
      (hp : IsPassword p.toList) (hq : IsPassword q.toList) :
      PasswordStep (urlText a user p b) (urlText a user q b)

/-- Two texts that differ in passwords of URLs that have users. -/
def SameText : String → String → Prop := Relation.ReflTransGen PasswordStep

mutual

/-- Two values that differ only under sensitive keys and in passwords, at any depth. -/
inductive SameValue : Json → Json → Prop
  | refl (v : Json) : SameValue v v
  | text {s s' : String} (h : SameText s s') : SameValue (.str s) (.str s')
  | arr {items items' : List Json} (h : SameItems items items') :
      SameValue (.arr items) (.arr items')
  | obj {fields fields' : List (String × Json)} (h : SameFields fields fields') :
      SameValue (.obj fields) (.obj fields')

inductive SameItems : List Json → List Json → Prop
  | nil : SameItems [] []
  | cons {v v' : Json} {items items' : List Json} (hv : SameValue v v')
      (h : SameItems items items') : SameItems (v :: items) (v' :: items')

inductive SameFields : List (String × Json) → List (String × Json) → Prop
  | nil : SameFields [] []
  | secret {key : String} {v v' : Json} {fields fields' : List (String × Json)}
      (hkey : isSensitiveKey key = true) (h : SameFields fields fields') :
      SameFields ((key, v) :: fields) ((key, v') :: fields')
  | value {key : String} {v v' : Json} {fields fields' : List (String × Json)}
      (hv : SameValue v v') (h : SameFields fields fields') :
      SameFields ((key, v) :: fields) ((key, v') :: fields')

end

def Json.isStr : Json → Bool
  | .str _ => true
  | _ => false

theorem SameText.scrubText_eq {s s' : String} (h : SameText s s') : scrubText s = scrubText s' := by
  induction h with
  | refl => rfl
  | tail _ hstep ih =>
    cases hstep with
    | replace a b hne hu hp hq =>
      rw [ih]
      exact (scrubText_urlText_eq_iff hu hp hq a b).mpr (.inl hne)

theorem SameValue.isStr_eq {v v' : Json} (h : SameValue v v') : v.isStr = v'.isStr := by
  cases h <;> rfl

theorem scrubValue_of_not_isStr {key : String} {v : Json} (hkey : isSensitiveKey key = false)
    (hv : v.isStr = false) : scrubValue key v = v := by
  cases v with
  | str s => contradiction
  | _ => simp [scrubValue, hkey]

theorem get?_scrubbed {d : Meta} {key : String} {v : Json} (hv : d.get? key = some v)
    (hkey : isSensitiveKey key = false) (hstr : v.isStr = false) :
    (d.map scrubValue).get? key = some v := by
  rw [OrderedDict.get?_map, hv, Option.map_some, scrubValue_of_not_isStr hkey hstr]

/-- Of two values that differ in secrets the report shows the difference when it is below a value
that is not a string. -/
theorem SameValue.scrubValue_eq_iff {key : String} {v v' : Json} (h : SameValue v v') :
    scrubValue key v = scrubValue key v' ↔
      (isSensitiveKey key = false → v.isStr = false → v = v') := by
  by_cases hkey : isSensitiveKey key = true
  · simp [scrubValue, hkey]
  · rw [Bool.not_eq_true] at hkey
    by_cases hstr : v.isStr = true
    · have hscrub : scrubValue key v = scrubValue key v' := by
        cases h with
        | refl => rfl
        | text htext => simp [scrubValue, hkey, htext.scrubText_eq]
        | arr | obj => contradiction
      simp [hscrub, hstr]
    · rw [Bool.not_eq_true] at hstr
      rw [scrubValue_of_not_isStr hkey hstr, scrubValue_of_not_isStr hkey (h.isStr_eq ▸ hstr)]
      simp [hkey, hstr]

theorem SameFields.keys_eq {fields fields' : List (String × Json)} (h : SameFields fields fields') :
    fields.map Prod.fst = fields'.map Prod.fst := by
  induction fields generalizing fields' with
  | nil =>
    cases h
    rfl
  | cons e fields ih =>
    cases h with
    | secret _ h | value _ h => rw [List.map_cons, List.map_cons, ih h]

/-- What two dictionaries have under a key that is not sensitive differs in secrets only. -/
theorem SameFields.value_of_mem {fields fields' : List (String × Json)}
    (h : SameFields fields fields') (hnodup : (fields.map Prod.fst).Nodup) {key : String}
    {v v' : Json} (hkey : isSensitiveKey key = false) (hv : (key, v) ∈ fields)
    (hv' : (key, v') ∈ fields') : SameValue v v' := by
  induction fields generalizing fields' with
  | nil => simp at hv
  | cons e fields ih =>
    have hkeys := h.keys_eq
    rw [hkeys] at hnodup
    cases h with
    | secret hsecret h =>
      rw [List.mem_cons, Prod.mk.injEq] at hv hv'
      rcases hv with ⟨rfl, -⟩ | hv
      · rw [hkey] at hsecret
        contradiction
      rcases hv' with ⟨rfl, -⟩ | hv'
      · rw [hkey] at hsecret
        contradiction
      rw [List.map_cons, List.nodup_cons, ← h.keys_eq] at hnodup
      exact ih h hnodup.2 hv hv'
    | value hsame h =>
      rw [List.map_cons, List.nodup_cons] at hnodup
      rw [List.mem_cons, Prod.mk.injEq] at hv hv'
      rcases hv with ⟨rfl, rfl⟩ | hv
      · rcases hv' with ⟨-, rfl⟩ | hv'
        · exact hsame
        · exact absurd (List.mem_map.mpr ⟨_, hv', rfl⟩) hnodup.1
      · rw [← h.keys_eq] at hnodup
        rcases hv' with ⟨rfl, -⟩ | hv'
        · exact absurd (List.mem_map.mpr ⟨_, hv, rfl⟩) hnodup.1
        · exact ih h hnodup.2 hv hv'

/-- The reports of two dictionaries are equal when each value of one is reported as its
counterpart in the other. -/
theorem SameFields.map_eq {fields fields' : List (String × Json)} (h : SameFields fields fields')
    (hvalues : ∀ key v v', (key, v) ∈ fields → (key, v') ∈ fields' →
      isSensitiveKey key = false → v.isStr = false → v = v') :
    fields.map (fun e => (e.1, scrubValue e.1 e.2)) =
      fields'.map fun e => (e.1, scrubValue e.1 e.2) := by
  induction fields generalizing fields' with
  | nil =>
    cases h
    rfl
  | cons e fields ih =>
    cases h with
    | @secret key v v' _ _ hkey h =>
      have hrest := ih h fun key v v' hv hv' =>
        hvalues key v v' (List.mem_cons_of_mem _ hv) (List.mem_cons_of_mem _ hv')
      have hhead : scrubValue key v = scrubValue key v' := by simp [scrubValue, hkey]
      rw [List.map_cons, List.map_cons, hrest, hhead]
    | @value key v v' _ _ hsame h =>
      have hrest := ih h fun key v v' hv hv' =>
        hvalues key v v' (List.mem_cons_of_mem _ hv) (List.mem_cons_of_mem _ hv')
      have hhead : scrubValue key v = scrubValue key v' :=
        hsame.scrubValue_eq_iff.mpr (hvalues key v v' List.mem_cons_self List.mem_cons_self)
      rw [List.map_cons, List.map_cons, hrest, hhead]

/-- Two metadata that differ only under sensitive keys and in passwords, at any depth. -/
def SameMeta (d d' : Meta) : Prop := SameFields d.entries d'.entries

/-- Metadata that differ in secrets only are reported alike exactly when every value at their top
level that is neither under a sensitive key nor a string is the same in both. -/
theorem nested_secrets_hidden_iff {d d' : Meta} (h : SameMeta d d') (r : HealthCheckResult) :
    (r.withMeta d).modelDump = (r.withMeta d').modelDump ↔
      ∀ key v v', d.get? key = some v → d'.get? key = some v' →
        isSensitiveKey key = false → v.isStr = false → v = v' := by
  rw [HealthCheckResult.modelDump_withMeta_eq_iff]
  constructor
  · intro heq key v v' hv hv' hkey hstr
    have hsame : SameValue v v' := h.value_of_mem d.nodup_keys hkey
      (OrderedDict.get?_eq_some_iff.mp hv) (OrderedDict.get?_eq_some_iff.mp hv')
    have hget : (d.map scrubValue).get? key = (d'.map scrubValue).get? key := by rw [heq]
    rw [OrderedDict.get?_map, OrderedDict.get?_map, hv, hv', Option.map_some, Option.map_some,
      Option.some.injEq] at hget
    exact hsame.scrubValue_eq_iff.mp hget hkey hstr
  · intro hvalues
    apply OrderedDict.ext
    apply SameFields.map_eq h
    intro key v v' hv hv'
    exact hvalues key v v' (OrderedDict.get?_eq_some_iff.mpr hv)
      (OrderedDict.get?_eq_some_iff.mpr hv')

/-- Metadata with a password one level down, and with one at the top level. -/
def nestedMeta (password : String) : Meta :=
  OrderedDict.empty.set "db" (.obj [("password", .str password)])

def flatMeta (password : String) : Meta := OrderedDict.empty.set "db_password" (.str password)

theorem nested_secrets_hidden_iff_db :
    (HealthCheckResult.withMeta ⟨"db", .ok, none, none, none⟩ (flatMeta "s3cr3t")).modelDump =
        (HealthCheckResult.withMeta ⟨"db", .ok, none, none, none⟩ (flatMeta "hunter2")).modelDump ∧
      (HealthCheckResult.withMeta ⟨"db", .ok, none, none, none⟩ (nestedMeta "s3cr3t")).modelDump ≠
        (HealthCheckResult.withMeta ⟨"db", .ok, none, none, none⟩
          (nestedMeta "hunter2")).modelDump := by
  have hflat : SameMeta (flatMeta "s3cr3t") (flatMeta "hunter2") := .secret (by decide) .nil
  have hnested : SameMeta (nestedMeta "s3cr3t") (nestedMeta "hunter2") :=
    .value (.obj (.secret (by decide) .nil)) .nil
  constructor
  · refine (nested_secrets_hidden_iff hflat _).mpr ?_
    intro key v v' hv _ hkey _
    have hmem : (key, v) ∈ (flatMeta "s3cr3t").entries := OrderedDict.get?_eq_some_iff.mp hv
    obtain ⟨rfl, -⟩ := Prod.mk.inj (List.mem_singleton.mp hmem)
    exact absurd hkey (by decide)
  · intro h
    have hvalue := (nested_secrets_hidden_iff hnested _).mp h "db" _ _ rfl rfl (by decide) rfl
    simp at hvalue

/-- A password one level down leaves through the report. -/
theorem nested_password_shown :
    ¬ ∀ (d d' : Meta), SameMeta d d' → ∀ r : HealthCheckResult,
      (r.withMeta d).modelDump = (r.withMeta d').modelDump := by
  intro h
  have hsame : SameMeta (nestedMeta "s3cr3t") (nestedMeta "hunter2") :=
    .value (.obj (.secret (by decide) .nil)) .nil
  have heq := h _ _ hsame ⟨"db", .ok, none, none, none⟩
  rw [HealthCheckResult.modelDump_withMeta_eq_iff] at heq
  have hget : ((nestedMeta "s3cr3t").map scrubValue).get? "db" =
      ((nestedMeta "hunter2").map scrubValue).get? "db" := by rw [heq]
  rw [get?_scrubbed rfl (by decide) rfl, get?_scrubbed rfl (by decide) rfl] at hget
  simp at hget

end FastapiM8
