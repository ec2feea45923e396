import PepeuchCluster.Discovery.Validation
import PepeuchCluster.Digest.Hmac

namespace discovery

open control_plane (encode)

def PROVENANCE_FORMAT : String := "pepeuch-ai.discovery-provenance/v1"

def KINDS : List String := ["synthetic", "controlled_observation", "historical_unknown"]

def CONTEXT_FIELDS : List String := ["domain", "account_partition", "representation"]

def PROVENANCE_FIELDS : List String :=
  ["format", "kind", "snapshot_id", "snapshot_sha256", "scope", "context", "issuer", "attestation"]

def isAliasStart (c : Char) : Bool := c.isLower || c.isDigit

def isAliasChar (c : Char) : Bool := isAliasStart c || c = '.' || c = '_' || c = '-'

/-- `[a-z0-9][a-z0-9._-]{0,63}`. -/
def isAlias (text : String) : Bool :=
  text.toList.head?.any isAliasStart && text.toList.all isAliasChar && text.toList.length ≤ 64

/-- `public_alias`. -/
def public_alias (value : Json) : Except Failure String := do
  demand (isString value = true ∧ isAlias value.text = true)
    "Public partition or issuer alias required"
  return value.text

/-- `_key`. -/
def issuer_key (key : Option (List UInt8)) : Except Failure (List UInt8) :=
  match key with
  | some key => do
    demand (32 ≤ key.length) "Explicit issuer key of at least 32 bytes required"
    return key
  | none => .error (.value_error "Explicit issuer key of at least 32 bytes required")

/-- `_mac`. -/
def mac (manifest : Json) (key : List UInt8) : String :=
  hmac_sha256 key (encode (canonical_json manifest))

section Provenance

variable [Unicode] [Datetime]

/-- What `in` may look up in a set. -/
def isHashable : Json → Bool
  | .arr _ | .obj _ => false
  | _ => true

def validation_context (value : Json) : Except Failure Json := do
  let data ← copy_metadata value
  demand (data.HasKeys CONTEXT_FIELDS) "Exact validation context required"
  CONTEXT_FIELDS.forM fun field => do
    let _ ← public_alias (data.item field)
  return data

def snapshot_copy (now : Now) (snapshot : Json) : Except Failure Json := do
  let data ← copy_metadata snapshot
  let _ ← validate_snapshot now data
  demand (data.HasKeys SNAPSHOT_FIELDS) "Unexpected snapshot fields"
  return data

/-- A scope that says of itself that it is a fixture. -/
def isSynthetic (scope : Json) : Bool :=
  scope.entries.any fun field =>
    isObject field.2 && (field.2.item "input").equal (.str "synthetic_fixture")

/-- The fields that the attestation covers. -/
def manifest_of (data context : Json) (kind : String) (issuer : Json) : List (String × Json) :=
  [("format", .str PROVENANCE_FORMAT), ("kind", .str kind),
    ("snapshot_id", data.item "snapshot_id"), ("snapshot_sha256", .str (digest data)),
      ("scope", data.item "scope"), ("context", context), ("issuer", issuer)]

/-- The checks of an issuer, or that there is none. -/
def issuance (data : Json) (kind : String) (issuer : Json) (key : Option (List UInt8)) :
    Except Failure Unit :=
  if kind = "controlled_observation" then do
    let _ ← public_alias issuer
    let _ ← issuer_key key
    demand (isSynthetic (data.item "scope") = false)
      "Synthetic scope cannot be attested as controlled"
  else demand (issuer = .null ∧ key = none) "Synthetic and unknown manifests are not attestations"

/-- `None if issuer is None else _mac(manifest, key)`. -/
def attestation (manifest issuer : Json) (key : Option (List UInt8)) : Except Failure Json :=
  if issuer = .null then .ok .null else do return .str (mac manifest (← issuer_key key))

def make_provenance (now : Now) (snapshot : Json) (kind : String) (context issuer : Json)
    (key : Option (List UInt8)) : Except Failure Json := do
  let data ← snapshot_copy now snapshot
  demand (kind ∈ KINDS) "Explicit provenance category required"
  let context ← validation_context context
  issuance data kind issuer key
  let manifest := manifest_of data context kind issuer
  let attested ← attestation (.dict manifest) issuer key
  return .dict (manifest ++ [("attestation", attested)])

/-- What `validate_provenance` demands of the issuer and the attestation. -/
def authenticate (now : Now) (data p context : Json)
    (trusted_issuers : String → Option (List UInt8)) :
    Except Failure Unit :=
  if p.item "kind" = .str "controlled_observation" then do
    let issuer ← public_alias (p.item "issuer")
    let key := trusted_issuers issuer
    demand (key ≠ none) "Untrusted local issuer"
    let expected ← make_provenance now data "controlled_observation" context (.str issuer) key
    demand (isString (p.item "attestation") = true ∧ isHex64 (p.item "attestation").text = true ∧
      (p.item "attestation").text = (expected.item "attestation").text) "Invalid local attestation"
  else demand (p.item "issuer" = .null ∧ p.item "attestation" = .null) "Unexpected attestation"

def validate_provenance (now : Now) (snapshot provenance : Json)
    (trusted_issuers : String → Option (List UInt8)) : Except Failure Json := do
  let data ← snapshot_copy now snapshot
  let p ← copy_metadata provenance
  demand (p.HasKeys PROVENANCE_FIELDS) "Versioned provenance manifest required"
  demand ((p.item "format").equal (.str PROVENANCE_FORMAT) = true) "Unknown provenance contract"
  Except.require (isHashable (p.item "kind") = true) .type_error
  demand (p.item "kind" ∈ KINDS.map Json.str) "Unknown provenance contract"
  let context ← validation_context (p.item "context")
  demand ((p.item "snapshot_id").equal (data.item "snapshot_id") = true ∧
      (p.item "snapshot_sha256").equal (.str (digest data)) = true ∧
      (p.item "scope").equal (data.item "scope") = true)
    "Provenance does not bind this complete snapshot"
  authenticate now data p context trusted_issuers
  return p

end Provenance

section Manifests

variable {data context issuer attested : Json} {kind key : String}

theorem manifest_item (data context : Json) (kind : String) (issuer attested : Json)
    (key : String) :
    (Json.dict (manifest_of data context kind issuer ++ [("attestation", attested)])).item key =
      (((manifest_of data context kind issuer ++ [("attestation", attested)]).find? fun field =>
        field.1 == key).map Prod.snd).getD .null :=
  Json.item_dict (by simp [manifest_of])

theorem manifest_keys (data context : Json) (kind : String) (issuer attested : Json) :
    (Json.dict (manifest_of data context kind issuer ++ [("attestation", attested)])).HasKeys
      PROVENANCE_FIELDS :=
  Json.hasKeys_dict _ rfl

theorem manifest_wellFormed (hdata : data.WellFormed) (hcontext : context.WellFormed)
    (hissuer : issuer.WellFormed) (hattested : attested.WellFormed) :
    (Json.dict
      (manifest_of data context kind issuer ++ [("attestation", attested)])).WellFormed := by
  refine Json.dict_wellFormed (by simp [manifest_of]) ?_
  simp only [manifest_of, List.cons_append, List.nil_append, List.forall_mem_cons,
    List.not_mem_nil, false_implies, implies_true, and_true]
  exact ⟨trivial, trivial, hdata.item _, trivial, hdata.item _, hcontext, hissuer, hattested⟩

theorem isHex64_mac (manifest : Json) (key : List UInt8) : isHex64 (mac manifest key) = true := by
  rw [isHex64, mac, Sha256.hmac_length, Bool.and_eq_true]
  exact ⟨rfl, List.all_eq_true.mpr fun c hc => Sha256.hmac_isHex hc⟩

end Manifests

theorem public_alias_ok {value : Json} {alias_name : String} :
    public_alias value = .ok alias_name ↔ value = .str alias_name ∧ isAlias alias_name = true := by
  simp only [public_alias, Except.bind_eq_ok, Except.pure_eq_ok, demand_eq_ok]
  constructor
  · rintro ⟨_, ⟨hstring, halias⟩, rfl⟩
    exact ⟨isString_text hstring, halias⟩
  · rintro ⟨rfl, halias⟩
    exact ⟨(), ⟨rfl, halias⟩, rfl⟩

theorem issuer_key_ok {key : Option (List UInt8)} {secret : List UInt8} :
    issuer_key key = .ok secret ↔ key = some secret ∧ 32 ≤ secret.length := by
  cases key with
  | none => simp [issuer_key]
  | some key =>
    simp only [issuer_key, Except.bind_eq_ok, Except.pure_eq_ok, demand_eq_ok, Option.some.injEq]
    constructor
    · rintro ⟨_, hlength, rfl⟩
      exact ⟨rfl, hlength⟩
    · rintro ⟨rfl, hlength⟩
      exact ⟨(), hlength, rfl⟩

section Checks

variable {value result snapshot data context : Json}

/-- Who may issue what `make_provenance` makes, and under which key. -/
structure Issuable (data : Json) (kind : String) (issuer : Json)
    (key : Option (List UInt8)) : Prop where
  controlled : kind = "controlled_observation" →
    (∃ name, issuer = .str name ∧ isAlias name = true) ∧
    (∃ secret, key = some secret ∧ 32 ≤ secret.length) ∧ isSynthetic (data.item "scope") = false
  other : kind ≠ "controlled_observation" → issuer = .null ∧ key = none

theorem issuance_ok {kind : String} {issuer : Json} {key : Option (List UInt8)} {u : Unit} :
    issuance data kind issuer key = .ok u ↔ Issuable data kind issuer key := by
  unfold issuance
  split
  · next hkind =>
    simp only [Except.bind_eq_ok, public_alias_ok, issuer_key_ok, demand_eq_ok]
    constructor
    · rintro ⟨name, hname, secret, hsecret, hscope⟩
      exact ⟨fun _ => ⟨⟨name, hname⟩, ⟨secret, hsecret⟩, hscope⟩, fun hne => absurd hkind hne⟩
    · intro h
      obtain ⟨⟨name, hname⟩, ⟨secret, hsecret⟩, hscope⟩ := h.controlled hkind
      exact ⟨name, hname, secret, hsecret, hscope⟩
  · next hkind =>
    rw [demand_eq_ok]
    exact ⟨fun h => ⟨fun heq => absurd heq hkind, fun _ => h⟩, fun h => h.other hkind⟩

/-- The manifest of a controlled observation, with its attestation. -/
def attested (data context : Json) (issuer : String) (key : List UInt8) : Json :=
  let manifest := manifest_of data context "controlled_observation" (.str issuer)
  .dict (manifest ++ [("attestation", .str (mac (.dict manifest) key))])

theorem attested_attestation {issuer : String} {key : List UInt8} :
    (attested data context issuer key).item
    "attestation" =
      .str (mac (.dict (manifest_of data context "controlled_observation" (.str issuer))) key) := by
  rw [attested, manifest_item]
  simp [manifest_of]

theorem attested_wellFormed {issuer : String} {key : List UInt8} (hdata : data.WellFormed)
    (hcontext : context.WellFormed) : (attested data context issuer key).WellFormed :=
  manifest_wellFormed hdata hcontext trivial trivial

variable [Unicode]

/-- A context of public aliases. -/
structure Context (value : Json) : Prop where
  plain : Plain value
  keys : value.HasKeys CONTEXT_FIELDS
  aliases : ∀ field ∈ CONTEXT_FIELDS, ∃ name, value.item field = .str name ∧ isAlias name = true

theorem validation_context_ok (h : value.WellFormed) :
    validation_context value = .ok result ↔ Context value ∧ result = value := by
  simp only [validation_context, Except.bind_eq_ok, Except.pure_eq_ok, demand_eq_ok,
    copy_metadata_eq_ok h, Except.forM_eq_ok, public_alias_ok]
  constructor
  · rintro ⟨_, ⟨hplain, rfl⟩, _, hkeys, _, haliases, rfl⟩
    refine ⟨⟨hplain, hkeys, fun field hfield => ?_⟩, rfl⟩
    obtain ⟨name, hname, _⟩ := haliases field hfield
    exact ⟨name, hname⟩
  · rintro ⟨⟨hplain, hkeys, haliases⟩, rfl⟩
    refine ⟨_, ⟨hplain, rfl⟩, (), hkeys, (), fun field hfield => ?_, rfl⟩
    obtain ⟨name, hname⟩ := haliases field hfield
    exact ⟨name, hname, trivial⟩

variable [Datetime] {now : Now}

/-- A snapshot with nothing but its fields. -/
structure Exact (snapshot : Json) : Prop where
  plain : Plain snapshot
  accepted : ∃ recovered, Accepted snapshot recovered
  keys : snapshot.HasKeys SNAPSHOT_FIELDS

theorem snapshot_copy_ok (h : snapshot.WellFormed) :
    snapshot_copy now snapshot = .ok data ↔ Exact snapshot ∧ data = snapshot := by
  simp only [snapshot_copy, Except.bind_eq_ok, Except.pure_eq_ok, demand_eq_ok,
    copy_metadata_eq_ok h]
  constructor
  · rintro ⟨_, ⟨hplain, rfl⟩, _, hvalid, _, hkeys, rfl⟩
    exact ⟨⟨hplain, (validate_snapshot_ok h hvalid).2, hkeys⟩, rfl⟩
  · rintro ⟨⟨hplain, haccepted, hkeys⟩, rfl⟩
    exact ⟨_, ⟨hplain, rfl⟩, _, (validate_snapshot_iff h).mpr ⟨rfl, haccepted⟩, (), hkeys, rfl⟩

theorem make_provenance_controlled {made : Json} {issuer : String} {key : List UInt8}
    (hsnapshot : snapshot.WellFormed) (hcontext : context.WellFormed) :
    make_provenance now snapshot "controlled_observation" context (.str issuer)
      (some key) = .ok made ↔ Exact snapshot ∧ Context context ∧
        Issuable snapshot "controlled_observation" (.str issuer) (some key) ∧
        made = attested snapshot context issuer key := by
  simp only [make_provenance, Except.bind_eq_ok, Except.pure_eq_ok, demand_eq_ok,
    snapshot_copy_ok hsnapshot, validation_context_ok hcontext, issuance_ok, attestation,
      reduceCtorEq, if_false, issuer_key_ok, Option.some.injEq]
  constructor
  · rintro ⟨_, ⟨hexact, rfl⟩, _, _, _, ⟨hctx, rfl⟩, _, hissuable, _, ⟨_, ⟨rfl, _⟩, rfl⟩, rfl⟩
    exact ⟨hexact, hctx, hissuable, rfl⟩
  · rintro ⟨hexact, hctx, hissuable, rfl⟩
    obtain ⟨_, ⟨secret, hsecret, hlength⟩, _⟩ := hissuable.controlled rfl
    obtain rfl := Option.some.inj hsecret
    exact ⟨snapshot, ⟨hexact, rfl⟩, (), by decide, context, ⟨hctx, rfl⟩, (), hissuable, _,
      ⟨key, ⟨rfl, hlength⟩, rfl⟩, rfl⟩

/-- What an accepted manifest of a controlled observation is: every field but the scope is
    the one that the issuer signs, and the scope compares equal to the one signed. -/
structure Attested (data p : Json) (issuer : String) (key : List UInt8) : Prop where
  bound : Exact data
  plain : Plain p
  keys : p.HasKeys PROVENANCE_FIELDS
  context : Context (p.item "context")
  issuable : Issuable data "controlled_observation" (.str issuer) (some key)
  format : p.item "format" = .str PROVENANCE_FORMAT
  kind : p.item "kind" = .str "controlled_observation"
  snapshot_id : p.item "snapshot_id" = data.item "snapshot_id"
  snapshot_sha256 : p.item "snapshot_sha256" = .str (digest data)
  issuer_name : p.item "issuer" = .str issuer
  attestation : p.item "attestation" =
    .str
      (mac (.dict (manifest_of data (p.item "context") "controlled_observation" (.str issuer))) key)
  scope : (p.item "scope").equal (data.item "scope") = true

/-- The snapshot's identity is a text, so that comparing it with another compares texts. -/
theorem Exact.equal_snapshot_id (h : Exact snapshot) :
    value.equal (snapshot.item "snapshot_id") = true ↔ value = snapshot.item "snapshot_id" := by
  obtain ⟨recovered, haccepted⟩ := h.accepted
  rw [haccepted.snapshot_id, Json.equal_str]

theorem validate_provenance_controlled {provenance p : Json}
    {trusted_issuers : String → Option (List UInt8)} (hsnapshot : snapshot.WellFormed)
    (hprovenance : provenance.WellFormed) :
    (validate_provenance now snapshot provenance trusted_issuers = .ok p ∧
      p.item "kind" = .str "controlled_observation") ↔ p = provenance ∧
        ∃ issuer key, trusted_issuers issuer = some key ∧
        Attested snapshot provenance issuer key := by
  simp only [validate_provenance, authenticate, Except.bind_eq_ok, Except.pure_eq_ok, demand_eq_ok,
    Except.require_eq_ok, snapshot_copy_ok hsnapshot, copy_metadata_eq_ok hprovenance]
  constructor
  · rintro ⟨⟨_, ⟨hexact, rfl⟩, _, ⟨hplain, rfl⟩, _, hkeys, _, hformat, _, _, _, _,
      context, hvalid, _, ⟨hid, hsha, hscope⟩, _, hauth, rfl⟩, hkind⟩
    obtain ⟨hcontext, rfl⟩ := (validation_context_ok (hprovenance.item _)).mp hvalid
    rw [if_pos hkind] at hauth
    simp only [Except.bind_eq_ok, public_alias_ok, demand_eq_ok] at hauth
    obtain ⟨issuer, ⟨hissuer, _⟩, _, htrusted, expected, hmake, hstring, _, hmac⟩ := hauth
    obtain ⟨key, hkey⟩ := Option.ne_none_iff_exists'.mp htrusted
    rw [hkey, make_provenance_controlled hsnapshot (hprovenance.item _)] at hmake
    obtain ⟨_, _, hissuable, rfl⟩ := hmake
    rw [attested_attestation] at hmac
    refine ⟨rfl, issuer, key, hkey, hexact, hplain, hkeys, hcontext, hissuable,
      Json.equal_str.mp hformat, hkind, hexact.equal_snapshot_id.mp hid, Json.equal_str.mp hsha,
        hissuer, ?_, hscope⟩
    exact (isString_text hstring).trans (congrArg Json.str hmac)
  · rintro ⟨rfl, issuer, key, hkey, h⟩
    obtain ⟨⟨name, hname, halias⟩, _, _⟩ := h.issuable.controlled rfl
    obtain rfl := Json.str.inj hname
    have hmake : make_provenance now snapshot "controlled_observation" (p.item "context")
      (.str issuer) (some key) =
        .ok (attested snapshot (p.item "context") issuer key) :=
      (make_provenance_controlled hsnapshot (hprovenance.item _)).mpr
        ⟨h.bound, h.context, h.issuable, rfl⟩
    refine ⟨⟨snapshot, ⟨h.bound, rfl⟩, p, ⟨h.plain, rfl⟩, (), h.keys, (),
      Json.equal_str.mpr h.format, (), ?_, (),
        ?_, p.item "context", (validation_context_ok (hprovenance.item _)).mpr ⟨h.context, rfl⟩, (),
        ⟨?_, ?_, h.scope⟩, (), ?_,
      rfl⟩, h.kind⟩
    · rw [h.kind]
      rfl
    · rw [h.kind]
      decide
    · exact h.bound.equal_snapshot_id.mpr h.snapshot_id
    · exact Json.equal_str.mpr h.snapshot_sha256
    · rw [if_pos h.kind]
      simp only [Except.bind_eq_ok, public_alias_ok, demand_eq_ok]
      refine ⟨issuer, ⟨h.issuer_name, halias⟩, (), by simp [hkey], _, hkey ▸ hmake, ?_⟩
      rw [h.attestation, attested_attestation]
      exact ⟨rfl, isHex64_mac _ _, rfl⟩

/-- Two accepted manifests of one issuer and context differ in their scopes only. -/
theorem Attested.eq_iff {p q : Json} {issuer : String} {key : List UInt8} (hp : p.WellFormed)
    (hq : q.WellFormed) (h : Attested data p issuer key) (h' : Attested data q issuer key)
    (hcontext : p.item "context" = q.item "context") :
    p = q ↔ p.item "scope" = q.item "scope" := by
  refine ⟨congrArg _, fun hscope => h.keys.ext h'.keys hp hq fun field hfield => ?_⟩
  simp only [PROVENANCE_FIELDS, List.mem_cons, List.not_mem_nil, or_false] at hfield
  rcases hfield with rfl | rfl | rfl | rfl | rfl | rfl | rfl | rfl
  · rw [h.format, h'.format]
  · rw [h.kind, h'.kind]
  · rw [h.snapshot_id, h'.snapshot_id]
  · rw [h.snapshot_sha256, h'.snapshot_sha256]
  · exact hscope
  · exact hcontext
  · rw [h.issuer_name, h'.issuer_name]
  · rw [h.attestation, h'.attestation, hcontext]

/-- An accepted manifest is the one signed exactly when its scope is. -/
theorem Attested.eq_attested_iff {p : Json} {issuer : String} {key : List UInt8}
    (hdata : data.WellFormed) (hp : p.WellFormed) (h : Attested data p issuer key) :
    p = attested data (p.item "context") issuer key ↔ p.item "scope" = data.item "scope" := by
  have hscope : (attested data (p.item "context") issuer key).item "scope" = data.item "scope" := by
    rw [attested, manifest_item]
    simp [manifest_of]
  constructor
  · intro heq
    rw [heq, hscope]
  · intro hsame
    refine h.keys.ext (manifest_keys _ _ _ _ _) hp
      (manifest_wellFormed hdata (hp.item _) trivial trivial) ?_
    intro field hfield
    rw [attested, manifest_item]
    simp only [PROVENANCE_FIELDS, List.mem_cons, List.not_mem_nil, or_false] at hfield
    rcases hfield with rfl | rfl | rfl | rfl | rfl | rfl | rfl | rfl
    · simp [manifest_of, h.format]
    · simp [manifest_of, h.kind]
    · simp [manifest_of, h.snapshot_id]
    · simp [manifest_of, h.snapshot_sha256]
    · simp [manifest_of, hsame]
    · simp [manifest_of]
    · simp [manifest_of, h.issuer_name]
    · simp [manifest_of, h.attestation]

/-- An accepted manifest of a controlled observation has the fields that are signed and no
    others. It is the manifest that its issuer makes of the snapshot exactly when the scope
    received has the canonical text of the snapshot's, and two of one snapshot, context and
    issuer are the same exactly when the scopes received have the same text. -/
theorem attested_provenance (now : Now) (trusted_issuers : String → Option (List UInt8)) :
    (∀ (snapshot provenance : Value) (p : Json),
      validate_provenance now snapshot.json provenance.json trusted_issuers = .ok p →
      p.item "kind" = .str "controlled_observation" →
      p.HasKeys PROVENANCE_FIELDS ∧ ∃ issuer key issued, p.item "issuer" = .str issuer ∧
        trusted_issuers issuer = some key ∧
        make_provenance now snapshot.json "controlled_observation" (p.item "context")
          (.str issuer) (some key) =
          .ok issued ∧
        (canonical_json p = canonical_json issued ↔
          canonical_json (provenance.json.item "scope") =
            canonical_json (snapshot.json.item "scope"))) ∧
    ∀ (snapshot provenance other : Value) (p q : Json),
      validate_provenance now snapshot.json provenance.json trusted_issuers = .ok p →
      validate_provenance now snapshot.json other.json trusted_issuers = .ok q →
      p.item "kind" = .str "controlled_observation" →
      q.item "kind" = .str "controlled_observation" →
      canonical_json (p.item "context") = canonical_json (q.item "context") →
      p.item "issuer" = q.item "issuer" → (canonical_json p = canonical_json q ↔
        canonical_json (provenance.json.item "scope") =
          canonical_json (other.json.item "scope")) := by
  refine ⟨fun snapshot provenance p h hkind => ?_,
    fun snapshot provenance other p q h h' hkind hkind' hcontext hissuer => ?_⟩
  · obtain ⟨rfl, issuer, key, htrusted, hattested⟩ :=
      (validate_provenance_controlled snapshot.wellFormed provenance.wellFormed).mp ⟨h, hkind⟩
    have hp := provenance.wellFormed
    have hissued :
        (attested snapshot.json (provenance.json.item "context") issuer key).WellFormed :=
      attested_wellFormed snapshot.wellFormed (hp.item "context")
    refine ⟨hattested.keys, issuer, key, _, hattested.issuer_name, htrusted,
      (make_provenance_controlled snapshot.wellFormed (hp.item _)).mpr
        ⟨hattested.bound, hattested.context, hattested.issuable, rfl⟩, ?_⟩
    rw [canonical_json_eq_iff hp hissued,
      canonical_json_eq_iff (hp.item _) (snapshot.wellFormed.item _)]
    exact hattested.eq_attested_iff snapshot.wellFormed hp
  · obtain ⟨rfl, issuer, key, htrusted, hattested⟩ :=
      (validate_provenance_controlled snapshot.wellFormed provenance.wellFormed).mp ⟨h, hkind⟩
    obtain ⟨rfl, issuer', key', htrusted', hattested'⟩ :=
      (validate_provenance_controlled snapshot.wellFormed other.wellFormed).mp ⟨h', hkind'⟩
    have hp := provenance.wellFormed
    have hq := other.wellFormed
    rw [hattested.issuer_name, hattested'.issuer_name, Json.str.injEq] at hissuer
    subst hissuer
    obtain rfl := Option.some.inj (htrusted.symm.trans htrusted')
    rw [canonical_json_eq_iff (hp.item _) (hq.item _)] at hcontext
    rw [canonical_json_eq_iff hp hq, canonical_json_eq_iff (hp.item _) (hq.item _)]
    exact hattested.eq_iff hp hq hattested' hcontext

end Checks

namespace Sample

def numbered : Json := .dict [("huggingface", .number (.int 1))]

def flagged : Json := .dict [("huggingface", .bool true)]

/-- A snapshot whose scope holds the number one. -/
def dated : Json := snapshot_document numbered (.str instant) [record.entry]

def context : Json :=
  .dict [("domain", .str "catalog"), ("account_partition", .str "public"),
    ("representation", .str "json")]

def key : List UInt8 := List.replicate 32 0

def trusted_issuers (issuer : String) : Option (List UInt8) :=
  if issuer = "collector" then some key else none

/-- The manifest that the issuer signs of the snapshot, with true where the scope has one. -/
def altered : Json :=
  let manifest := manifest_of dated context "controlled_observation" (.str "collector")
  .dict [("format", .str PROVENANCE_FORMAT), ("kind", .str "controlled_observation"),
    ("snapshot_id", dated.item "snapshot_id"), ("snapshot_sha256", .str (digest dated)),
      ("scope", flagged),
    ("context", context), ("issuer", .str "collector"),
      ("attestation", .str (mac (.dict manifest) key))]

theorem numbered_wellFormed : numbered.WellFormed :=
  Json.dict_wellFormed (by simp) (by simp [Json.WellFormed])

theorem dated_wellFormed : dated.WellFormed :=
  document_wellFormed record_acceptable numbered_wellFormed trivial

theorem dated_exact : Exact dated where
  plain := ⟨by decide +kernel, by decide +kernel⟩
  accepted := ⟨_, document_accepted record_acceptable
    ⟨by decide, by decide, by decide, by decide +kernel⟩ fun _ => by decide⟩
  keys := Json.hasKeys_dict _ rfl

theorem context_wellFormed : context.WellFormed :=
  Json.dict_wellFormed (by simp) (by simp [Json.WellFormed])

theorem context_context : Context context where
  plain := ⟨by decide, by decide +kernel⟩
  keys := by decide
  aliases := by
    simp only [CONTEXT_FIELDS, List.forall_mem_cons, List.not_mem_nil, false_implies,
      implies_true, and_true]
    exact ⟨⟨_, rfl, by decide⟩, ⟨_, rfl, by decide⟩, ⟨_, rfl, by decide⟩⟩

theorem altered_item (field : String) :
    altered.item field = ((([("format", Json.str PROVENANCE_FORMAT),
      ("kind", .str "controlled_observation"), ("snapshot_id", dated.item "snapshot_id"),
      ("snapshot_sha256", .str (digest dated)), ("scope", flagged), ("context", context),
      ("issuer", .str "collector"), ("attestation", .str (mac (.dict
        (manifest_of dated context "controlled_observation" (.str "collector"))) key))]).find?
        fun entry => entry.1 == field).map Prod.snd).getD .null :=
  Json.item_dict (by simp)

theorem altered_wellFormed : altered.WellFormed := by
  refine Json.dict_wellFormed (by simp) ?_
  simp only [List.forall_mem_cons, List.not_mem_nil, false_implies, implies_true, and_true]
  exact ⟨trivial, trivial, dated_wellFormed.item _, trivial,
    Json.dict_wellFormed (by simp) (by simp [Json.WellFormed]), context_wellFormed,
      trivial, trivial⟩

theorem altered_attested : Attested dated altered "collector" key where
  bound := dated_exact
  plain := ⟨by decide +kernel, by decide +kernel⟩
  keys := Json.hasKeys_dict _ rfl
  context := by
    rw [altered_item]
    exact context_context
  issuable := by
    refine ⟨fun _ => ⟨⟨"collector", rfl, by decide⟩, ⟨key, rfl, by decide⟩, ?_⟩,
      fun hne => absurd rfl hne⟩
    rw [dated, document_scope]
    decide
  format := by simp [altered_item]
  kind := by simp [altered_item]
  snapshot_id := by simp [altered_item]
  snapshot_sha256 := by simp [altered_item]
  issuer_name := by simp [altered_item]
  attestation := by simp [altered_item]
  scope := by
    rw [altered_item, dated, document_scope]
    decide +kernel

end Sample

open Sample in
/-- The manifest with an altered scope is accepted, and is not the one that its issuer signs. -/
theorem altered_provenance :
    validate_provenance Sample.now dated altered trusted_issuers = .ok altered ∧
      ∃ issued, make_provenance Sample.now dated "controlled_observation" context
        (.str "collector") (some key) =
        .ok issued ∧ canonical_json altered ≠ canonical_json issued := by
  have h := altered_attested
  have hcontext : altered.item "context" = context := by simp [altered_item]
  have hscope : altered.item "scope" ≠ dated.item "scope" := by
    rw [altered_item, dated, document_scope]
    decide
  refine ⟨((validate_provenance_controlled dated_wellFormed altered_wellFormed).mpr
    ⟨rfl, _, _, rfl, h⟩).1, _, (make_provenance_controlled dated_wellFormed context_wellFormed).mpr
    ⟨h.bound, context_context, h.issuable, rfl⟩, ?_⟩
  intro hsame
  have hsigned := canonical_json_injective altered_wellFormed
    (attested_wellFormed dated_wellFormed context_wellFormed) hsame
  rw [← hcontext] at hsigned
  exact hscope ((h.eq_attested_iff dated_wellFormed altered_wellFormed).mp hsigned)

end discovery
