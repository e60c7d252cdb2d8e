import FastapiM8.Lib.Transducer
import FastapiM8.Revocation.Watermark
import Mathlib.Data.Finset.Image

/-! Event ids in the watermark rule: two caches are given the same revocations, one of them
under other event ids. What tells the two apart is the empty id, which the advancing branch
takes for a missing one and the branch at the watermark does not. -/
namespace FastapiM8

/-- The arguments of one call of `note_revocation`. -/
structure NoteCall where
  userId : String
  authGeneration : ℤ
  eventId : Option String
  deriving DecidableEq

/-- The same call under another event id; a missing id stays missing. -/
def NoteCall.rename (r : String → String) (call : NoteCall) : NoteCall :=
  { call with eventId := call.eventId.map r }

namespace JtiRevocationCache

variable {c c' : JtiRevocationCache} {r : String → String}

def noteCall (c : JtiRevocationCache) (call : NoteCall) : Bool × JtiRevocationCache :=
  c.noteRevocation call.userId call.authGeneration call.eventId

/-- A call is for a new user, or for a generation above the watermark of its user. -/
def Advances (c : JtiRevocationCache) (call : NoteCall) : Prop :=
  ∀ w, c.watermarks.get? call.userId = some w → w < call.authGeneration

/-- The second cache has the watermarks of the first one, and its dedup sets under the other
ids. -/
structure Renamed (r : String → String) (c c' : JtiRevocationCache) : Prop where
  watermarks : c'.watermarks = c.watermarks
  appliedEventIds : c'.appliedEventIds = c.appliedEventIds.map fun _ ids => ids.image r

/-- The calls and the renamed calls, each on a fresh cache, are answered alike and lead to
caches that correspond. -/
def Renames (r : String → String) (ttl : ℤ) (calls : List NoteCall) : Prop :=
  Transducer.outputs noteCall (init ttl) calls =
      Transducer.outputs noteCall (init ttl) (calls.map (.rename r)) ∧
    Renamed r (Transducer.final noteCall (init ttl) calls)
      (Transducer.final noteCall (init ttl) (calls.map (.rename r)))

theorem Renamed.appliedIds (h : Renamed r c c') (userId : String) :
    c'.appliedIds userId = (c.appliedIds userId).image r := by
  unfold JtiRevocationCache.appliedIds
  rw [h.appliedEventIds, OrderedDict.get?_map]
  cases c.appliedEventIds.get? userId with
  | none => rfl
  | some ids => rfl

theorem Renamed.recordEventId (h : Renamed r c c') {userId : String} (eventId : String)
    (hc : userId ∈ c.watermarks.keys) (hc' : userId ∈ c'.watermarks.keys) :
    Renamed r (c.recordEventId userId eventId hc) (c'.recordEventId userId (r eventId) hc') := by
  refine ⟨h.watermarks, ?_⟩
  show c'.appliedEventIds.set userId (insert (r eventId) (c'.appliedIds userId)) =
    (c.appliedEventIds.set userId (insert eventId (c.appliedIds userId))).map fun _ ids =>
      ids.image r
  rw [h.appliedIds, ← Finset.image_insert, h.appliedEventIds]
  exact (OrderedDict.map_set _ _ _ _).symm

/-- The sets that an advance starts with decide whether the caches still correspond. -/
theorem Renamed.advance_iff (h : Renamed r c c') (userId : String) (generation : ℤ)
    (eventId : Option String) :
    Renamed r (c.advance userId generation eventId)
        (c'.advance userId generation (eventId.map r)) ↔
      firstEventIds (eventId.map r) = (firstEventIds eventId).image r := by
  constructor
  · intro hnext
    have hids := hnext.appliedIds userId
    rwa [advance_appliedIds_self, advance_appliedIds_self] at hids
  · intro heq
    constructor
    · show (trimWatermarks (c'.watermarks.set userId generation) _).1 =
        (trimWatermarks (c.watermarks.set userId generation) _).1
      rw [h.watermarks]
      exact trimWatermarks_fst _ _ _
    · show (trimWatermarks (c'.watermarks.set userId generation)
          (c'.appliedEventIds.set userId (firstEventIds (eventId.map r)))).2 =
        (trimWatermarks (c.watermarks.set userId generation)
          (c.appliedEventIds.set userId (firstEventIds eventId))).2.map fun _ ids => ids.image r
      have hset := OrderedDict.map_set (fun _ ids => ids.image r) c.appliedEventIds userId
        (firstEventIds eventId)
      rw [h.watermarks, h.appliedEventIds, heq, ← trimWatermarks_map, hset]

theorem firstEventIds_map_iff (eventId : Option String) :
    firstEventIds (eventId.map r) = (firstEventIds eventId).image r ↔
      (eventId = some "" ↔ eventId.map r = some "") := by
  cases eventId with
  | none => simp [firstEventIds]
  | some id =>
    by_cases hid : id = "" <;> by_cases hrid : r id = "" <;> simp [firstEventIds, hid, hrid]

/-- One call keeps the caches in correspondence and is answered alike, unless it advances its
user under an id that is empty on one side only. -/
theorem Renamed.noteCall_iff (hr : Function.Injective r) (h : Renamed r c c')
    (call : NoteCall) :
    ((c.noteCall call).1 = (c'.noteCall (call.rename r)).1 ∧
        Renamed r (c.noteCall call).2 (c'.noteCall (call.rename r)).2) ↔
      (c.Advances call → (call.eventId = some "" ↔ call.eventId.map r = some "")) := by
  obtain ⟨user, g, eventId⟩ := call
  have hlookup : c'.watermarks.get? user = c.watermarks.get? user := by rw [h.watermarks]
  have hkept {w : ℤ} (hw : c.watermarks.get? user = some w) (hle : g ≤ w) :
      ¬ c.Advances ⟨user, g, eventId⟩ := fun hadv => (hadv w hw).not_ge hle
  unfold noteCall NoteCall.rename
  rcases noteRevocation_cases c user g eventId with
    ⟨w, hw, hlt, heq⟩ | ⟨hw, ⟨id, hid, rfl⟩, heq⟩ | ⟨hw, rfl, heq⟩ | ⟨hw, id, hid, rfl, heq⟩ |
    ⟨hadv, heq⟩
  · have heq' := noteRevocation_stale (eventId.map r) (hlookup.trans hw) hlt
    rw [heq, heq']
    exact iff_of_true ⟨rfl, h⟩ fun hadv => absurd hadv (hkept hw hlt.le)
  · have hid' : r id ∈ c'.appliedIds user := by
      rw [h.appliedIds]
      exact Finset.mem_image_of_mem r hid
    have heq' := noteRevocation_replay (hlookup.trans hw) hid'
    rw [heq, Option.map_some, heq']
    exact iff_of_true ⟨rfl, h⟩ fun hadv => absurd hadv (hkept hw le_rfl)
  · have heq' := noteRevocation_anonymous (hlookup.trans hw)
    rw [heq, Option.map_none, heq']
    exact iff_of_true ⟨rfl, h⟩ fun hadv => absurd hadv (hkept hw le_rfl)
  · have hid' : r id ∉ c'.appliedIds user := by
      rw [h.appliedIds, hr.mem_finset_image]
      exact hid
    have heq' := noteRevocation_sibling (hlookup.trans hw) hid'
    have hnext := h.recordEventId id (OrderedDict.mem_keys_iff.mpr ⟨g, hw⟩)
      (OrderedDict.mem_keys_iff.mpr ⟨g, hlookup.trans hw⟩)
    rw [heq, Option.map_some, heq']
    exact iff_of_true ⟨rfl, hnext⟩ fun hadv => absurd hadv (hkept hw le_rfl)
  · have hadv' : ∀ w, c'.watermarks.get? user = some w → w < g := by
      rwa [hlookup]
    rw [heq, noteRevocation_advance (eventId.map r) hadv']
    have hstep := (h.advance_iff user g eventId).trans (firstEventIds_map_iff eventId)
    constructor
    · intro hnext _
      exact hstep.mp hnext.2
    · intro hids
      exact ⟨rfl, hstep.mpr (hids hadv)⟩

theorem Renamed.init (r : String → String) (ttl : ℤ) : Renamed r (.init ttl) (.init ttl) :=
  ⟨rfl, rfl⟩

/-- At each point of a sequence of calls the two caches correspond and have answered alike,
just if no call of it advances its user under an id that is empty on one side only. -/
theorem renames_prefixes_iff (hr : Function.Injective r) (ttl : ℤ) (calls : List NoteCall) :
    (∀ done, done <+: calls → Renames r ttl done) ↔
      ∀ done call, done ++ [call] <+: calls →
        Advances (Transducer.final noteCall (JtiRevocationCache.init ttl) done) call →
        (call.eventId = some "" ↔ call.eventId.map r = some "") :=
  Transducer.agree_prefixes_iff (R := Renamed r)
    (fun _ _ call h => Renamed.noteCall_iff hr h call) (Renamed.init r ttl)

/-- The ids have no say in the watermarks. -/
theorem final_rename_watermarks (r : String → String) (h : c'.watermarks = c.watermarks)
    (calls : List NoteCall) :
    (Transducer.final noteCall c' (calls.map (.rename r))).watermarks =
      (Transducer.final noteCall c calls).watermarks := by
  induction calls generalizing c c' with
  | nil => exact h
  | cons call calls ih =>
    apply ih
    show (c'.noteRevocation call.userId call.authGeneration (call.eventId.map r)).2.watermarks =
      (c.noteRevocation call.userId call.authGeneration call.eventId).2.watermarks
    rw [noteRevocation_watermarks, noteRevocation_watermarks, h]

theorem noteRevocation_at_watermark_iff {user id : String} {g : ℤ}
    (hw : c.watermarks.get? user = some g) :
    (c.noteRevocation user g (some id)).1 = true ↔ id ∉ c.appliedIds user := by
  by_cases hid : id ∈ c.appliedIds user
  · rw [noteRevocation_replay hw hid]
    simp [hid]
  · rw [noteRevocation_sibling hw hid]
    simp [hid]

/-- A call that was acted on is acted on again when it is repeated at once, just if it has no
id or has advanced its user under the empty one. -/
theorem noteCall_again_iff (c : JtiRevocationCache) (call : NoteCall)
    (hacted : (c.noteCall call).1 = true) :
    ((c.noteCall call).2.noteCall call).1 = true ↔
      call.eventId = none ∨ c.Advances call ∧ call.eventId = some "" := by
  obtain ⟨user, g, eventId⟩ := call
  dsimp only [noteCall] at hacted ⊢
  have hw := noteRevocation_acted hacted
  cases eventId with
  | none =>
    rw [noteRevocation_anonymous hw]
    simp
  | some id =>
    rw [noteRevocation_at_watermark_iff hw]
    rcases noteRevocation_cases c user g (some id) with
      ⟨w, -, -, heq⟩ | ⟨-, -, heq⟩ | ⟨-, hnone, -⟩ | ⟨hold, id', -, hid', heq⟩ | ⟨hadv, heq⟩
    · rw [heq] at hacted
      contradiction
    · rw [heq] at hacted
      contradiction
    · contradiction
    · obtain rfl := Option.some.inj hid'
      have hkept : ¬ c.Advances ⟨user, g, some id⟩ := fun hadv => (hadv g hold).false
      rw [heq, recordEventId_appliedIds_self]
      simp [hkept]
    · have hadv' : c.Advances ⟨user, g, some id⟩ := hadv
      rw [heq, advance_appliedIds_self]
      rcases eq_or_ne id "" with rfl | hid
      · simp [firstEventIds, hadv']
      · simp [firstEventIds, hid]

/-- Renaming the event ids by an injection goes unnoticed in all runs just if it keeps the
empty id, and throughout a given run just if no call of it advances its user under an id that is
empty on one side only. The watermarks never differ. An event can be acted on twice in a row
just if it has no id or has advanced its user under the empty one. -/
theorem event_ids_opaque_iff (ttl : ℤ) {r : String → String} (hr : Function.Injective r) :
    ((∀ calls, Renames r ttl calls) ↔ r "" = "") ∧
    (∀ calls, (∀ done, done <+: calls → Renames r ttl done) ↔
      ∀ done call, done ++ [call] <+: calls →
        Advances (Transducer.final noteCall (JtiRevocationCache.init ttl) done) call →
        (call.eventId = some "" ↔ call.eventId.map r = some "")) ∧
    (∀ calls : List NoteCall,
      (Transducer.final noteCall (JtiRevocationCache.init ttl) (calls.map (.rename r))).watermarks =
        (Transducer.final noteCall (JtiRevocationCache.init ttl) calls).watermarks) ∧
    ∀ (c : JtiRevocationCache) call, (c.noteCall call).1 = true →
      (((c.noteCall call).2.noteCall call).1 = true ↔
        call.eventId = none ∨ c.Advances call ∧ call.eventId = some "") := by
  refine ⟨⟨?_, ?_⟩, renames_prefixes_iff hr ttl, final_rename_watermarks r rfl,
    noteCall_again_iff⟩
  · intro h
    -- the first call of all advances its user
    have hfirst : Advances (JtiRevocationCache.init ttl) ⟨"", 0, some ""⟩ := by
      intro w hw
      simp [JtiRevocationCache.init] at hw
    have hids := (renames_prefixes_iff hr ttl [⟨"", 0, some ""⟩]).mp (fun done _ => h done) []
      ⟨"", 0, some ""⟩ List.prefix_rfl hfirst
    exact Option.some.inj (hids.mp rfl)
  · intro hempty calls
    refine (renames_prefixes_iff hr ttl calls).mpr ?_ calls List.prefix_rfl
    intro done call _ _
    cases call.eventId with
    | none => simp
    | some id =>
      rw [Option.map_some, Option.some_inj, Option.some_inj]
      constructor
      · rintro rfl
        exact hempty
      · intro hid
        exact hr (hid.trans hempty.symm)

theorem event_ids_opaque_iff_swapped : Renames (Equiv.swap "evt-1" "evt-2") 30
    [⟨"user-a", 1, some "evt-1"⟩, ⟨"user-a", 1, some "evt-2"⟩, ⟨"user-a", 1, some "evt-1"⟩] :=
  (event_ids_opaque_iff 30 (Equiv.injective _)).1.mpr (by decide) _

/-- A revocation delivered twice under the empty id is acted on twice, under any other id
once. -/
theorem event_ids_not_opaque : ¬ ∀ r : String → String, Function.Injective r →
    ∀ ttl calls, Renames r ttl calls := by
  intro h
  have hsame := h (Equiv.swap "" "evt-1") (Equiv.injective _) 30
    [⟨"user-a", 1, some ""⟩, ⟨"user-a", 1, some ""⟩]
  exact absurd hsame.1 (by decide)

end JtiRevocationCache

end FastapiM8
