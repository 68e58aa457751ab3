import N4Cluster.Base.Spelling
import N4Cluster.Wire.Models

/-! The native launch payload in both its spellings: `model_dump` writes its fields by name
or by alias, on all three levels, and either is read back as the same payload. -/
namespace N4Cluster
open Wire

/-! ## Dumping by alias -/

namespace Model
variable {α : Type}

def requiredAs {name : String} {c : JsonCodec α} (w : c.Spelling) : (required name c).Spelling :=
  .field name (.inl rfl) w

def optionalAs {name : String} {c : JsonCodec α} {default : α} {plain : (c.dump default).finite = true}
    (w : c.Spelling) : (optional name c default plain).Spelling :=
  .field name (.inl rfl) w

/-- A field under its alias. -/
def aliasedAs {name also : String} {c : JsonCodec α} {missing : Except PyErr α} {other : also ≠ name}
    {plain : ∀ value, missing = .ok value → (c.dump value).finite = true} (w : c.Spelling) :
    (aliased name also c missing other plain).Spelling :=
  .field also (.inr rfl) w

end Model

namespace JsonCodec
variable {α : Type}

def nullableAs {c : JsonCodec α} {solid : ∀ value, (c.dump value).isNull = false} (w : c.Spelling)
    (written : ∀ value, (w.write value).isNull = false) : (nullable c solid).Spelling where
  write
    | none => .null
    | some value => w.write value
  exact value := by
    cases value with
    | none => rfl
    | some value => simp [nullable, written, w.exact]
  calm value calm := by
    cases value with
    | none => rfl
    | some value => exact w.calm value calm

end JsonCodec

open JsonCodec Model

def handoffByAlias : publicationHandoff.Spelling :=
  have fields : handoffFields.Spelling :=
    (requiredAs (Codec.spelled _)).pair <| (requiredAs (Codec.spelled _)).pair <|
    (requiredAs (Codec.spelled _)).pair <| (aliasedAs (Codec.spelled _)).pair <|
    (aliasedAs (Codec.spelled _)).pair <| aliasedAs (Codec.spelled _)
  fields.openObject.refine

def manifestByAlias : launchManifest.Spelling :=
  have fields : manifestFields.Spelling :=
    (optionalAs (Codec.spelled _)).pair <| aliasedAs (nullableAs handoffByAlias fun _ => rfl)
  fields.openObject.refine

def payloadByAlias : launchPayload.Spelling :=
  have fields : nativePayloadFields.Spelling :=
    (aliasedAs (Codec.spelled _)).pair <| (optionalAs manifestByAlias).pair <| aliasedAs (Codec.spelled _)
  fields.openObject.refine

/-- `model_dump(by_alias=...)`. -/
def NativeExperimentLaunchPayload.modelDump (payload : NativeExperimentLaunchPayload) (byAlias : Bool) : Json :=
  if byAlias then payloadByAlias.write payload else launchPayload.dump payload

/-! ## What is accepted -/

/-- The object given as the manifest of a payload. -/
def ManifestOf (fields inner : Dict) : Prop := fields.lookup "manifest" = some (.obj inner)

/-- The object given as the handoff of a manifest, under either name. -/
def HandoffOf (inner innermost : Dict) : Prop :=
  inner.lookup "robustnessEvidencePublicationHandoff" = some (.obj innermost) ∨
    inner.lookup "robustness_evidence_publication_handoff" = some (.obj innermost)

/-- The fields of an object that are none of the known ones. -/
def Dict.beyond (fields : Dict) (known : List String) : Dict :=
  fields.filter fun entry => decide (entry.1 ∉ known)

section
variable {α : Type} {doc : Json} {fields inner innermost : Dict}

theorem openCodec_ok {model : Model α} {value : α × model.Extra} :
    model.openCodec.validate doc = .ok value ↔ ∃ fields, doc = .obj fields ∧ model.shadowed fields = false ∧
      model.read fields = .ok value.1 ∧ value.2.val = Dict.beyond fields model.known := by
  refine Fields.openObject_ok.trans (exists_congr fun fields => and_congr_left fun _ => ?_)
  constructor
  · exact fun found => (Document.obj_dict doc fields found).symm
  · rintro rfl
    rfl

theorem payload_ok {payload : NativeExperimentLaunchPayload} :
    launchPayload.validate doc = .ok payload ↔ ∃ fields, doc = .obj fields ∧
      nativePayloadFields.shadowed fields = false ∧
      nativePayloadFields.read fields =
        .ok (payload.legacyConfig, payload.manifest, payload.strictCampaignSpecs) ∧
      payload.extra = Dict.beyond fields nativePayloadKeys :=
  Codec.refine_ok.trans openCodec_ok

theorem manifest_ok {manifest : NativeExperimentLaunchPayloadManifest} :
    launchManifest.validate doc = .ok manifest ↔ ∃ fields, doc = .obj fields ∧
      manifestFields.shadowed fields = false ∧
      manifestFields.read fields = .ok (manifest.version, manifest.robustnessEvidencePublicationHandoff) ∧
      manifest.extra = Dict.beyond fields manifestKeys :=
  Codec.refine_ok.trans openCodec_ok

theorem handoff_ok {handoff : NativeRobustnessEvidencePublicationHandoff} :
    publicationHandoff.validate doc = .ok handoff ↔ ∃ fields, doc = .obj fields ∧
      handoffFields.shadowed fields = false ∧
      handoffFields.read fields = .ok ((), handoff.requested, handoff.destination, handoff.failClosed,
        handoff.alignmentStrategies, handoff.publishedFields) ∧
      handoff.extra = Dict.beyond fields handoffKeys :=
  Codec.refine_ok.trans openCodec_ok

theorem manifest_given {payload : NativeExperimentLaunchPayload}
    (accepted : launchPayload.validate (.obj fields) = .ok payload) (given : ManifestOf fields inner) :
    launchManifest.validate (.obj inner) = .ok payload.manifest := by
  obtain ⟨_, ⟨⟩, _, read, _⟩ := payload_ok.mp accepted
  have second := (Fields.pair_ok.mp (Fields.pair_ok.mp read).2).1
  rwa [Model.optional, Fields.field_given] at second
  exact given

/-- A field that is given under its name is not given under its alias. -/
theorem unshadowed {model : Model α} (clear : model.shadowed fields = false) {also name : String}
    (twice : (also, name) ∈ model.aliases) {doc : Json} (given : fields.lookup name = some doc) :
    fields.lookup also = none := by
  refine lookup_absent fun entry member same => ?_
  obtain ⟨before, after, rfl, _⟩ := List.lookup_eq_some_iff.mp given
  have apart := List.any_eq_false.mp clear (also, name) twice
  rw [Bool.and_eq_true_iff] at apart
  refine apart ⟨List.any_eq_true.mpr ⟨entry, member, decide_eq_true same⟩, ?_⟩
  simp

theorem handoff_given {manifest : NativeExperimentLaunchPayloadManifest}
    (accepted : launchManifest.validate (.obj inner) = .ok manifest) (given : HandoffOf inner innermost) :
    ∃ handoff, manifest.robustnessEvidencePublicationHandoff = some handoff ∧
      publicationHandoff.validate (.obj innermost) = .ok handoff := by
  obtain ⟨_, ⟨⟩, clear, read, _⟩ := manifest_ok.mp accepted
  have found : ((some "robustnessEvidencePublicationHandoff").bind fun text => List.lookup text inner).or
      (inner.lookup "robustness_evidence_publication_handoff") = some (.obj innermost) := by
    rcases given with also | name
    · rw [Option.bind_some, also, Option.some_or]
    · rw [Option.bind_some, unshadowed clear List.mem_cons_self name, Option.none_or, name]
  have second := (Fields.pair_ok.mp read).2
  rw [Model.aliased, Fields.field_given found] at second
  change (some <$> publicationHandoff.validate (.obj innermost)) = _ at second
  cases validated : publicationHandoff.validate (.obj innermost) with
  | error error =>
    rw [validated] at second
    contradiction
  | ok handoff =>
    rw [validated] at second
    exact ⟨handoff, (Except.ok.inj second).symm, rfl⟩

/-- On some level a field is given both by its alias and by its name. -/
def GivenTwice (fields : Dict) : Prop :=
  nativePayloadFields.shadowed fields = true ∨ ∃ inner, ManifestOf fields inner ∧
    (manifestFields.shadowed inner = true ∨ ∃ innermost, HandoffOf inner innermost ∧
      handoffFields.shadowed innermost = true)

theorem accepted_once {payload : NativeExperimentLaunchPayload}
    (accepted : launchPayload.validate (.obj fields) = .ok payload) : ¬GivenTwice fields := by
  rintro (twice | ⟨inner, given, twice | ⟨innermost, deeper, twice⟩⟩)
  · obtain ⟨_, ⟨⟩, clear, _⟩ := payload_ok.mp accepted
    exact nomatch clear.symm.trans twice
  · obtain ⟨_, ⟨⟩, clear, _⟩ := manifest_ok.mp (manifest_given accepted given)
    exact nomatch clear.symm.trans twice
  · obtain ⟨handoff, _, validated⟩ := handoff_given (manifest_given accepted given) deeper
    obtain ⟨_, ⟨⟩, clear, _⟩ := handoff_ok.mp validated
    exact nomatch clear.symm.trans twice

/-- What is beyond the known fields is kept on every level. -/
structure KeepsExtra (fields : Dict) (payload : NativeExperimentLaunchPayload) : Prop where
  own : payload.extra = Dict.beyond fields nativePayloadKeys
  manifest : ∀ inner, ManifestOf fields inner → payload.manifest.extra = Dict.beyond inner manifestKeys
  handoff : ∀ inner innermost, ManifestOf fields inner → HandoffOf inner innermost →
    ∃ handoff, payload.manifest.robustnessEvidencePublicationHandoff = some handoff ∧
      handoff.extra = Dict.beyond innermost handoffKeys

theorem accepted_keeps {payload : NativeExperimentLaunchPayload}
    (accepted : launchPayload.validate (.obj fields) = .ok payload) : KeepsExtra fields payload where
  own := by
    obtain ⟨_, ⟨⟩, _, _, extra⟩ := payload_ok.mp accepted
    exact extra
  manifest inner given := by
    obtain ⟨_, ⟨⟩, _, _, extra⟩ := manifest_ok.mp (manifest_given accepted given)
    exact extra
  handoff inner innermost given deeper := by
    obtain ⟨handoff, held, validated⟩ := handoff_given (manifest_given accepted given) deeper
    obtain ⟨_, ⟨⟩, _, _, extra⟩ := handoff_ok.mp validated
    exact ⟨handoff, held, extra⟩

end

/-! ## Hops -/

namespace NativeExperimentLaunchPayload

/-- The payload after it was dumped to text, by name or by alias, and validated anew at
every hop. -/
def relay (payload : NativeExperimentLaunchPayload) : List Bool → Except PyErr NativeExperimentLaunchPayload
  | [] => .ok payload
  | byAlias :: rest => do
    let read ← launchPayload.validate (payload.modelDump byAlias).stored
    read.relay rest

theorem modelDump_exact (payload : NativeExperimentLaunchPayload) (byAlias : Bool) :
    launchPayload.validate (payload.modelDump byAlias) = .ok payload := by
  cases byAlias with
  | true => exact payloadByAlias.exact payload
  | false => exact launchPayload.exact payload

theorem relay_exact {payload : NativeExperimentLaunchPayload}
    (finite : (launchPayload.dump payload).finite = true) (hops : List Bool) :
    payload.relay hops = .ok payload := by
  induction hops with
  | nil => rfl
  | cons byAlias rest ih =>
    have read : launchPayload.validate (payload.modelDump byAlias).stored = .ok payload := by
      cases byAlias with
      | true => exact payloadByAlias.reload finite
      | false => exact launchPayload.spelled.reload finite
    rw [relay, read]
    exact ih

end NativeExperimentLaunchPayload

end N4Cluster
