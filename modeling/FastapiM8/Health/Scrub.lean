import FastapiM8.Health

/-! Which passwords of URLs a health report shows: the text is scrubbed piece by piece, and
credentials are masked where they name a user. -/
namespace FastapiM8

/-- A user and a password as a URL carries them. -/
def credentials (user password : List Char) : List Char :=
  ':' :: '/' :: '/' :: (user ++ ':' :: (password ++ ['@']))

/-- A user in a URL, possibly without a character. -/
def IsUser (user : List Char) : Prop := ∀ c ∈ user, isUserChar c = true

/-- A password in a URL. -/
def IsPassword (password : List Char) : Prop :=
  password ≠ [] ∧ ∀ c ∈ password, isPasswordChar c = true

theorem IsUser.notMem {user : List Char} (h : IsUser user) {c : Char}
    (hc : isUserChar c = false) : c ∉ user := by
  intro hmem
  rw [h c hmem] at hc
  contradiction

theorem IsPassword.notMem {password : List Char} (h : IsPassword password) {c : Char}
    (hc : isPasswordChar c = false) : c ∉ password := by
  intro hmem
  rw [h.2 c hmem] at hc
  contradiction

/-- A text splits at the first occurrence of a symbol in one way. -/
theorem eq_of_append_cons_eq {α : Type*} {x x' z z' : List α} {a : α} (hx : a ∉ x) (hx' : a ∉ x')
    (h : x ++ a :: z = x' ++ a :: z') : x = x' ∧ z = z' := by
  induction x generalizing x' with
  | nil =>
    cases x' with
    | nil => exact ⟨rfl, (List.cons.inj h).2⟩
    | cons b x' => exact absurd (List.cons.inj h).1 (List.ne_of_not_mem_cons hx')
  | cons b x ih =>
    cases x' with
    | nil => exact absurd (List.cons.inj h).1.symm (List.ne_of_not_mem_cons hx)
    | cons b' x' =>
      obtain ⟨rfl, hrest⟩ := List.cons.inj h
      obtain ⟨rfl, rfl⟩ := ih (List.not_mem_of_not_mem_cons hx)
        (List.not_mem_of_not_mem_cons hx') hrest
      exact ⟨rfl, rfl⟩

theorem getLast?_credentials (user password : List Char) :
    (credentials user password).getLast? = some '@' := by
  have happend : credentials user password =
      (':' :: '/' :: '/' :: (user ++ ':' :: password)) ++ ['@'] := by simp [credentials]
  rw [happend, List.getLast?_concat]

theorem credentials_append (user password t : List Char) :
    credentials user password ++ t =
      ':' :: '/' :: '/' :: (user ++ ':' :: (password ++ '@' :: t)) := by
  simp [credentials]

/-- The credentials at the head of a text are determined by it. -/
theorem eq_of_credentials_append_eq {user user' password password' t t' : List Char}
    (hu : IsUser user) (hu' : IsUser user') (hp : IsPassword password)
    (hp' : IsPassword password')
    (h : credentials user password ++ t = credentials user' password' ++ t') : t = t' := by
  rw [credentials_append, credentials_append] at h
  have huser := eq_of_append_cons_eq (hu.notMem rfl) (hu'.notMem rfl)
    (List.cons.inj (List.cons.inj (List.cons.inj h).2).2).2
  exact (eq_of_append_cons_eq (hp.notMem rfl) (hp'.notMem rfl) huser.2).2

theorem unanchored_credInUrl : credInUrl.Unanchored :=
  ⟨Regex.unanchored_literal _ _, trivial, trivial, trivial, trivial⟩

/-- The pattern matches credentials with a user and a password. -/
theorem mem_rests_credInUrl {start : Bool} {t t' : List Char} :
    t' ∈ credInUrl.rests start t ↔ ∃ user password, user ≠ [] ∧ IsUser user ∧
      IsPassword password ∧ t = credentials user password ++ t' := by
  have hat : Regex.Unanchored (.one fun c : Char => c = '@') := trivial
  have hpassword : Regex.Unanchored (.seq (.many isPasswordChar) _) := ⟨trivial, hat⟩
  have hcolon : Regex.Unanchored (.seq (.one fun c : Char => c = ':') _) := ⟨trivial, hpassword⟩
  have huser : Regex.Unanchored (.seq (.many isUserChar) _) := ⟨trivial, hcolon⟩
  rw [credInUrl, Regex.mem_rests_seq huser]
  simp only [Regex.mem_rests_seq hcolon, Regex.mem_rests_seq hpassword, Regex.mem_rests_seq hat,
    Regex.mem_rests_literal, Regex.mem_rests_many, Regex.mem_rests_one, decide_eq_true_eq]
  constructor
  · rintro ⟨t₁, rfl, t₂, ⟨user, hne, rfl, hu⟩, t₃, ⟨_, rfl, rfl⟩, t₄, ⟨password, hp, rfl, hpc⟩,
      _, rfl, rfl⟩
    exact ⟨user, password, hne, hu, ⟨hp, hpc⟩, (credentials_append user password t').symm⟩
  · rintro ⟨user, password, hne, hu, hp, rfl⟩
    exact ⟨_, credentials_append user password t', _, ⟨user, hne, rfl, hu⟩, _, ⟨':', rfl, rfl⟩, _,
      ⟨password, hp.1, rfl, hp.2⟩, '@', rfl, rfl⟩

theorem rest?_credInUrl {start : Bool} {t t' : List Char} :
    credInUrl.rest? start t = some t' ↔ ∃ user password, user ≠ [] ∧ IsUser user ∧
      IsPassword password ∧ t = credentials user password ++ t' := by
  rw [Regex.rest?_eq_some_iff, mem_rests_credInUrl]
  intro u hmemu v hmemv
  obtain ⟨user, password, -, hu, hp, rfl⟩ := mem_rests_credInUrl.mp hmemu
  obtain ⟨user', password', -, hu', hp', h⟩ := mem_rests_credInUrl.mp hmemv
  exact eq_of_credentials_append_eq hu hu' hp hp' h

/-- Credentials begin with the only `://` they have. -/
theorem eq_nil_of_credentials_eq {user password v w : List Char} (hu : IsUser user)
    (hp : IsPassword password) (h : credentials user password = v ++ ':' :: '/' :: w) : v = [] := by
  have hslash : '/' ∉ user ++ ':' :: (password ++ ['@']) := by
    simp [hu.notMem (c := '/') rfl, hp.notMem (c := '/') rfl]
  match v with
  | [] => rfl
  | [_] => simp [credentials] at h
  | [_, _] => simp [credentials] at h
  | _ :: _ :: _ :: v =>
    have hrest := (List.cons.inj (List.cons.inj (List.cons.inj h).2).2).2
    exact absurd (by rw [hrest]; simp) hslash

theorem head?_of_rest?_eq_some {t t' : List Char} (h : credInUrl.rest? true t = some t') :
    t.head? = some ':' := by
  obtain ⟨user, password, -, -, -, rfl⟩ := rest?_credInUrl.mp h
  rfl

/-- A match that begins before `://` ends before it. -/
theorem rest?_append_of_slashes {v t : List Char} (hv : v ≠ []) :
    credInUrl.rest? true (v ++ ':' :: '/' :: t) =
      (credInUrl.rest? true v).map (· ++ ':' :: '/' :: t) := by
  apply Option.ext
  intro t'
  rw [rest?_credInUrl, Option.map_eq_some_iff]
  constructor
  · rintro ⟨user, password, hne, hu, hp, h⟩
    rcases List.append_eq_append_iff.mp h with ⟨w, hcred, htail⟩ | ⟨w, rfl, rfl⟩
    · match w with
      | [] =>
        rw [List.append_nil] at hcred
        rw [List.nil_append] at htail
        refine ⟨[], rest?_credInUrl.mpr ⟨user, password, hne, hu, hp, ?_⟩, htail⟩
        rw [List.append_nil, hcred]
      | [c] =>
        have hc : ':' = c := (List.cons.inj htail).1
        have hlast := getLast?_credentials user password
        rw [hcred, List.getLast?_concat, ← hc] at hlast
        simp at hlast
      | c :: d :: w =>
        have hc : ':' = c := (List.cons.inj htail).1
        have hd : '/' = d := (List.cons.inj (List.cons.inj htail).2).1
        rw [← hc, ← hd] at hcred
        exact absurd (eq_nil_of_credentials_eq hu hp hcred) hv
    · exact ⟨w, rest?_credInUrl.mpr ⟨user, password, hne, hu, hp, rfl⟩, rfl⟩
  · rintro ⟨w, hw, rfl⟩
    obtain ⟨user, password, hne, hu, hp, rfl⟩ := rest?_credInUrl.mp hw
    exact ⟨user, password, hne, hu, hp, List.append_assoc _ _ _⟩

/-- No match begins after the last slash of credentials. -/
theorem rest?_eq_none_of_at {v t : List Char} (hv : v.getLast? = some '@') (hslash : '/' ∉ v) :
    credInUrl.rest? true (v ++ t) = none := by
  rw [Option.eq_none_iff_forall_ne_some]
  intro t' h
  obtain ⟨user, password, -, -, -, h⟩ := rest?_credInUrl.mp h
  match v with
  | [] => simp at hv
  | [c] =>
    obtain ⟨rfl, -⟩ := List.cons.inj h
    simp at hv
  | c :: d :: v =>
    obtain ⟨-, htail⟩ := List.cons.inj h
    obtain ⟨rfl, -⟩ := List.cons.inj htail
    simp at hslash

/-- No match begins inside credentials. -/
theorem rest?_inside_credentials {user password u v t : List Char} (huser : IsUser user)
    (hp : IsPassword password) (h : credentials user password = u ++ v) (hu : u ≠ [])
    (hv : v ≠ []) : credInUrl.rest? true (v ++ t) = none := by
  match u with
  | [] => contradiction
  | [_] =>
    have hslash : '/' :: _ = v := (List.cons.inj h).2
    rw [← hslash, Option.eq_none_iff_forall_ne_some]
    intro t' hmatch
    simpa using head?_of_rest?_eq_some hmatch
  | [_, _] =>
    have hslash : '/' :: _ = v := (List.cons.inj (List.cons.inj h).2).2
    rw [← hslash, Option.eq_none_iff_forall_ne_some]
    intro t' hmatch
    simpa using head?_of_rest?_eq_some hmatch
  | _ :: _ :: _ :: u =>
    have hrest : user ++ ':' :: (password ++ ['@']) = u ++ v :=
      (List.cons.inj (List.cons.inj (List.cons.inj h).2).2).2
    apply rest?_eq_none_of_at
    · have hlast : (user ++ ':' :: (password ++ ['@'])).getLast? = some '@' := by
        rw [← List.cons_append, ← List.append_assoc, List.getLast?_concat]
      rwa [hrest, List.getLast?_append_of_ne_nil _ hv] at hlast
    · intro hmem
      have hslash : '/' ∈ user ++ ':' :: (password ++ ['@']) := by
        rw [hrest]
        exact List.mem_append_right u hmem
      simp [huser.notMem (c := '/') rfl, hp.notMem (c := '/') rfl] at hslash

/-- Credentials without a user are no match, and none begins in them. -/
theorem rest?_credentials_nil {password u v t : List Char} (hp : IsPassword password)
    (h : credentials [] password = u ++ v) (hv : v ≠ []) :
    credInUrl.rest? true (v ++ t) = none := by
  by_cases hempty : u = []
  · subst hempty
    rw [Option.eq_none_iff_forall_ne_some]
    intro t' hmatch
    obtain ⟨user, password', hne, hu, -, hmatch⟩ := rest?_credInUrl.mp hmatch
    rw [← List.nil_append v, ← h, credentials_append, credentials_append] at hmatch
    have huser := (List.cons.inj (List.cons.inj (List.cons.inj hmatch).2).2).2
    cases user with
    | nil => contradiction
    | cons c user =>
      obtain ⟨rfl, -⟩ := List.cons.inj huser
      exact absurd List.mem_cons_self (hu.notMem (c := ':') rfl)
  · have hnone : IsUser [] := by simp [IsUser]
    exact rest?_inside_credentials hnone hp h hempty hv

/-- Credentials are replaced by a mask when they have a user, and kept otherwise. -/
theorem sub_credentials {user password : List Char} (hu : IsUser user) (hp : IsPassword password)
    (t : List Char) :
    credInUrl.sub maskedCredentials (credentials user password ++ t) =
      (if user = [] then credentials [] password else maskedCredentials) ++
        credInUrl.sub maskedCredentials t := by
  split
  next hempty =>
    subst hempty
    apply Regex.sub_append_of_none unanchored_credInUrl
    intro u v h hv
    exact rest?_credentials_nil hp h hv
  next hne =>
    apply Regex.sub_of_match unanchored_credInUrl
    · simp [credentials]
    · exact rest?_credInUrl.mpr ⟨user, password, hne, hu, hp, rfl⟩

/-- The text before credentials and the text after them are scrubbed by themselves. -/
theorem sub_append_credentials {user password : List Char} (hu : IsUser user)
    (hp : IsPassword password) (a b : List Char) :
    credInUrl.sub maskedCredentials (a ++ (credentials user password ++ b)) =
      credInUrl.sub maskedCredentials a ++
        ((if user = [] then credentials [] password else maskedCredentials) ++
          credInUrl.sub maskedCredentials b) := by
  rw [Regex.sub_append unanchored_credInUrl, sub_credentials hu hp]
  intro u v _ hv
  rw [credentials_append]
  exact rest?_append_of_slashes hv

theorem scrubText_eq (text : String) :
    scrubText text = String.ofList (credInUrl.sub maskedCredentials text.toList) := by
  unfold scrubText
  split
  next h =>
    subst h
    rfl
  next => rfl

/-- A text with a URL that has a user and a password. -/
def urlText (a user password b : String) : String :=
  a ++ "://" ++ user ++ ":" ++ password ++ "@" ++ b

theorem toList_urlText (a user password b : String) :
    (urlText a user password b).toList =
      a.toList ++ (credentials user.toList password.toList ++ b.toList) := by
  simp [urlText, credentials]

section Passwords

variable {user p q : String} (hu : IsUser user.toList) (hp : IsPassword p.toList)
  (hq : IsPassword q.toList) (a b : String)
include hu hp hq

/-- The passwords of a URL are told apart in the scrubbed text when the URL has no user. -/
theorem scrubText_urlText_eq_iff :
    scrubText (urlText a user p b) = scrubText (urlText a user q b) ↔ user ≠ "" ∨ p = q := by
  rw [scrubText_eq, scrubText_eq, String.ofList_inj, toList_urlText, toList_urlText,
    sub_append_credentials hu hp, sub_append_credentials hu hq, List.append_cancel_left_eq,
    List.append_cancel_right_eq]
  split
  next h =>
    have hempty : user = "" := String.toList_inj.mp h
    simp [hempty, credentials, String.toList_inj]
  next h =>
    have hne : user ≠ "" := fun hempty => h (by rw [hempty]; rfl)
    simp [hne]

end Passwords

theorem scrubMeta_some (d : Meta) : scrubMeta (some d) = some (d.map scrubValue) := by
  unfold scrubMeta
  simp only
  split
  next h =>
    have hnil : d.entries = [] := List.length_eq_zero_iff.mp h
    congr 1
    apply OrderedDict.ext
    simp [OrderedDict.map, hnil]
  next => rfl

namespace HealthCheckResult

def withError (r : HealthCheckResult) (text : String) : HealthCheckResult :=
  { r with error := some text }

def withMeta (r : HealthCheckResult) (metadata : Meta) : HealthCheckResult :=
  { r with metadata := some metadata }

theorem modelDump_withError_eq_iff (r : HealthCheckResult) (x y : String) :
    (r.withError x).modelDump = (r.withError y).modelDump ↔ scrubText x = scrubText y := by
  simp only [modelDump, withError, HealthCheckReport.mk.injEq, HealthCheckResult.mk.injEq,
    Option.map_some, Option.some.injEq, true_and, and_true]
  exact and_iff_left rfl

theorem modelDump_withMeta_eq_iff (r : HealthCheckResult) (d d' : Meta) :
    (r.withMeta d).modelDump = (r.withMeta d').modelDump ↔
      d.map scrubValue = d'.map scrubValue := by
  simp only [modelDump, withMeta, HealthCheckReport.mk.injEq, HealthCheckResult.mk.injEq,
    scrubMeta_some, Option.some.injEq, true_and]
  exact and_iff_left rfl

/-- A string at the top level of the metadata is reported as its scrubbed text, unless its key
is sensitive. -/
theorem modelDump_withMeta_set_eq_iff (r : HealthCheckResult) (d : Meta) (key x y : String) :
    (r.withMeta (d.set key (.str x))).modelDump = (r.withMeta (d.set key (.str y))).modelDump ↔
      isSensitiveKey key = true ∨ scrubText x = scrubText y := by
  rw [modelDump_withMeta_eq_iff, OrderedDict.map_set, OrderedDict.map_set, OrderedDict.set_inj]
  by_cases h : isSensitiveKey key = true <;> simp [scrubValue, h]

end HealthCheckResult

/-- A report tells two passwords of a URL apart exactly where the URL has no user: in the error,
and in a string of the metadata whose key is not sensitive. -/
theorem password_hidden_iff {user p q : String} (hu : IsUser user.toList)
    (hp : IsPassword p.toList) (hq : IsPassword q.toList) (a b : String) :
    (scrubText (urlText a user p b) = scrubText (urlText a user q b) ↔ user ≠ "" ∨ p = q) ∧
      (∀ r : HealthCheckResult, (r.withError (urlText a user p b)).modelDump =
        (r.withError (urlText a user q b)).modelDump ↔ user ≠ "" ∨ p = q) ∧
      ∀ (r : HealthCheckResult) (d : Meta) (key : String),
        (r.withMeta (d.set key (.str (urlText a user p b)))).modelDump =
          (r.withMeta (d.set key (.str (urlText a user q b)))).modelDump ↔
        isSensitiveKey key = true ∨ user ≠ "" ∨ p = q := by
  have hscrub := scrubText_urlText_eq_iff hu hp hq a b
  refine ⟨hscrub, ?_, ?_⟩
  · intro r
    rw [HealthCheckResult.modelDump_withError_eq_iff, hscrub]
  · intro r d key
    rw [HealthCheckResult.modelDump_withMeta_set_eq_iff, hscrub]

theorem password_hidden_iff_redis :
    scrubText (urlText "redis" "" "s3cr3t" "cache:6379") ≠
        scrubText (urlText "redis" "" "hunter2" "cache:6379") ∧
      scrubText (urlText "redis" "app" "s3cr3t" "cache:6379") =
        scrubText (urlText "redis" "app" "hunter2" "cache:6379") := by
  have hp : IsPassword "s3cr3t".toList := ⟨by decide, List.all_eq_true.mp (by decide)⟩
  have hq : IsPassword "hunter2".toList := ⟨by decide, List.all_eq_true.mp (by decide)⟩
  constructor
  · have hu : IsUser "".toList := by simp [IsUser]
    have hiff := (password_hidden_iff hu hp hq "redis" "cache:6379").1
    exact fun h => by simpa using hiff.mp h
  · have hu : IsUser "app".toList := List.all_eq_true.mp (by decide)
    exact (password_hidden_iff hu hp hq "redis" "cache:6379").1.mpr (.inl (by decide))

/-- The password of a URL without a user leaves through the scrubbed text. -/
theorem userless_password_shown :
    ¬ ∀ a b user p q : String, IsUser user.toList → IsPassword p.toList → IsPassword q.toList →
      scrubText (urlText a user p b) = scrubText (urlText a user q b) := by
  intro h
  have hshown := h "redis" "cache:6379" "" "s3cr3t" "hunter2" (by simp [IsUser])
    ⟨by decide, List.all_eq_true.mp (by decide)⟩ ⟨by decide, List.all_eq_true.mp (by decide)⟩
  exact absurd hshown (by decide)

end FastapiM8
