import PepeuchCluster.Discovery.Archive
import PepeuchCluster.Json.Bytes
import PepeuchCluster.Json.Ordered

namespace discovery

open control_plane (encode)

def CHECKPOINT_FORMAT : String := "pepeuch-ai.discovery-checkpoint/v1"

def CHECKPOINT_FIELDS : List String := ["format", "request_sha256", "entry_sha256", "entry"]

/-- `ID.fullmatch`: two digests and a dot between them. -/
def isIdentity (text : String) : Bool :=
  isHex64 (String.ofList (text.toList.take 64)) && (text.toList.drop 64).head? = some '.' &&
    isHex64 (String.ofList (text.toList.drop 65))

/-- `identity.split(".")[0]`. -/
def request_part (text : String) : String := String.ofList (text.toList.takeWhile fun c => c ≠ '.')

def identity_of (entry : Json) : String := digest (entry.item "request") ++ "." ++ digest entry

def file_of (identity : String) : String := identity ++ ".json"

/-- The document that wraps an entry. -/
def checkpoint_document (entry : Json) : Json :=
  .dict
    [("format", .str CHECKPOINT_FORMAT), ("request_sha256", .str (digest (entry.item "request"))),
      ("entry_sha256", .str (digest entry)), ("entry", entry)]

@[irreducible] def checkpoint_bytes (entry : Json) : List UInt8 :=
  encode (canonical_json (checkpoint_document entry))

section Model

variable [Unicode] [Datetime]

/-- `copy_metadata(strict_json_loads(raw))`. -/
def read_document (raw : List UInt8) : Except Failure Json :=
  match String.fromUTF8? raw.toByteArray with
  | none => .error (.value_error "Invalid UTF-8")
  | some text => do
    let data ← strict_json_loads text
    copy_metadata data.ordered

/-- The part of `save_checkpoint` that has the lock. -/
def deposit (temporary name : String) (raw : List UInt8) : Call Unit := do
  match ← found (read_file name) with
  | some existing =>
    Effect.require (existing = raw)
      (.value_error "Existing checkpoint conflicts with immutable content")
  | none => publish temporary name raw

def save_checkpoint (now : Now) (trusted_issuers : String → Option (List UInt8))
    (root token : String) (entry : Json) :
    Call String := do
  let entry ← Effect.ofExcept (validate_cache now entry trusted_issuers)
  let identity := identity_of entry
  let raw := checkpoint_bytes entry
  Effect.require (raw.length ≤ MAX_BYTES) (.value_error "Checkpoint exceeds local size limit")
  in_directory root (in_writer (deposit (".pending-" ++ token) (file_of identity) raw))
  return identity

def load_checkpoint (now : Now) (trusted_issuers : String → Option (List UInt8)) (root : String)
    (request identity : Json) :
    Call Json := do
  let request ← Effect.ofExcept (canonical_request request)
  Effect.require (isString identity = true ∧ isIdentity identity.text = true ∧
    request_part identity.text = digest request)
    (.value_error "Explicit checkpoint identity of this exact request required")
  let data ← in_directory root do
    let raw ← read_file (file_of identity.text)
    Effect.ofExcept (read_document raw)
  Effect.require (data.HasKeys CHECKPOINT_FIELDS) (.value_error "Versioned checkpoint required")
  Effect.require ((data.item "format").equal (.str CHECKPOINT_FORMAT) = true ∧
      (data.item "request_sha256").equal (.str (digest request)) = true ∧
      (data.item "entry_sha256").equal (.str (digest (data.item "entry"))) = true ∧
      identity.text = (data.item "request_sha256").text ++ "." ++ (data.item "entry_sha256").text)
    (.value_error "Checkpoint integrity mismatch")
  let entry ← Effect.ofExcept (validate_cache now (data.item "entry") trusted_issuers)
  Effect.require ((entry.item "request").equal request = true)
    (.value_error "Checkpoint belongs to another request")
  return entry

end Model

section Identities

theorem digest_hex (value : Json) : (digest value).toList.length = 64 ∧ ∀ c ∈ (digest value).toList,
    Sha256.isHex c = true := by
  have h := isHex64_digest value
  rw [isHex64, Bool.and_eq_true, decide_eq_true_iff, List.all_eq_true] at h
  exact h

theorem identity_toList (entry : Json) :
    (identity_of entry).toList =
      (digest (entry.item "request")).toList ++ '.' :: (digest entry).toList := by
  simp [identity_of]

theorem isIdentity_identity (entry : Json) : isIdentity (identity_of entry) = true := by
  have hlength := (digest_hex (entry.item "request")).1
  have hhex := isHex64_digest (entry.item "request")
  have hhex' := isHex64_digest entry
  have hdrop : ((digest (entry.item "request")).toList ++ '.' :: (digest entry).toList).drop 65 =
      (digest entry).toList := by
    rw [List.drop_append, hlength, List.drop_eq_nil_of_le (by omega)]
    rfl
  rw [isIdentity, identity_toList, List.take_left' hlength, List.drop_left' hlength, hdrop,
    String.ofList_toList, String.ofList_toList, hhex, hhex']
  rfl

theorem request_part_identity (entry : Json) :
    request_part (identity_of entry) = digest (entry.item "request") := by
  have hhex := (digest_hex (entry.item "request")).2
  have hdot : ∀ c ∈ (digest (entry.item "request")).toList, (decide (c ≠ '.')) = true := by
    intro c hc
    refine decide_eq_true fun heq => ?_
    have hdigit := hhex c hc
    rw [heq] at hdigit
    exact absurd hdigit (by decide)
  rw [request_part, identity_toList, List.takeWhile_append_of_pos hdot]
  simp

/-- The file of a checkpoint is none of the other files of a save. -/
theorem file_ne {identity : String} (h : isIdentity identity = true) : file_of identity ≠ LOCK ∧
    ∀ token, file_of identity ≠ ".pending-" ++ token := by
  have hfirst : ∀ text : String, text.toList.head? = some '.' → file_of identity ≠ text := by
    rintro _ htext rfl
    rw [isIdentity, Bool.and_eq_true, Bool.and_eq_true, isHex64, Bool.and_eq_true,
      String.toList_ofList] at h
    have hlength := of_decide_eq_true h.1.1.1
    have hhex := List.all_eq_true.mp h.1.1.2
    cases hlist : identity.toList with
    | nil => simp [hlist] at hlength
    | cons c rest =>
      rw [file_of, String.toList_append, hlist] at htext
      obtain rfl := Option.some.inj htext
      have hdot := hhex '.' (by simp [hlist])
      exact absurd hdot (by decide)
  exact ⟨hfirst _ (by decide), fun token => hfirst _ (by simp)⟩

theorem identity_digest {entry other : Json} (h : identity_of entry = identity_of other) :
    digest entry = digest other := by
  have hlist := congrArg String.toList h
  rw [identity_toList, identity_toList] at hlist
  have hlength :=
    (digest_hex (entry.item "request")).1.trans (digest_hex (other.item "request")).1.symm
  have hrest := (List.append_inj hlist hlength).2
  exact String.toList_injective (List.tail_eq_of_cons_eq hrest)

theorem file_of_injective {identity other : String} (h : file_of identity = file_of other) :
    identity = other := by
  have hlist := congrArg String.toList h
  rw [file_of, file_of, String.toList_append, String.toList_append] at hlist
  exact String.toList_injective (List.append_cancel_right hlist)

end Identities

section Documents

variable {entry : Json}

theorem checkpoint_item (entry : Json) (key : String) : (checkpoint_document entry).item key =
    (([("format", Json.str CHECKPOINT_FORMAT),
      ("request_sha256", .str (digest (entry.item "request"))), ("entry_sha256", .str (digest
        entry)), ("entry", entry)].find? fun field => field.1 == key).map Prod.snd).getD .null :=
  Json.item_dict (by simp)

theorem checkpoint_wellFormed (h : entry.WellFormed) : (checkpoint_document entry).WellFormed := by
  refine Json.dict_wellFormed (by simp) ?_
  simp only [List.forall_mem_cons, List.not_mem_nil, false_implies, implies_true, and_true]
  exact ⟨trivial, trivial, trivial, h⟩

variable [Unicode]

/-- A key in ASCII is folded letter by letter. -/
theorem folded_ascii {key : String} (h : ∀ c ∈ key.toList, c.toNat < 128)
    (hlower : ∀ c ∈ key.toList, c.toLower.toNat < 128) :
    folded key = String.ofList ((key.toList.map Char.toLower).filter Char.isAlphanum) := by
  have hfold : key.toList.flatMap Unicode.casefold = key.toList.map Char.toLower := by
    rw [List.flatMap_congr fun c hc => Unicode.casefold_ascii c (h c hc)]
    exact List.map_eq_flatMap.symm
  rw [folded, hfold]
  refine congrArg String.ofList (List.filter_congr fun c hc => ?_)
  obtain ⟨letter, hletter, rfl⟩ := List.mem_map.mp hc
  exact Unicode.isalnum_ascii _ (hlower letter hletter)

theorem checkpoint_plain (h : Plain entry) : Plain (checkpoint_document entry) := by
  have hspared : ∀ key ∈ CHECKPOINT_FIELDS, folded key ∉ SECRET_KEYS := by
    intro key hkey
    have hascii : ∀ key ∈ CHECKPOINT_FIELDS, key.toList.all (fun c => c.toNat < 128) = true ∧
        key.toList.all (fun c => c.toLower.toNat < 128) = true ∧
        String.ofList ((key.toList.map Char.toLower).filter Char.isAlphanum) ∉
          SECRET_KEYS := by decide
    obtain ⟨hkeys, hlower, hfree⟩ := hascii key hkey
    rwa [folded_ascii (by simpa using hkeys) (by simpa using hlower)]
  refine plain_dict ?_
  simp only [List.forall_mem_cons, List.not_mem_nil, false_implies, implies_true, and_true]
  exact ⟨⟨hspared _ (by decide), plain_str _⟩, ⟨hspared _ (by decide), plain_str _⟩,
    ⟨hspared _ (by decide), plain_str _⟩, hspared _ (by decide), h⟩

/-- A written checkpoint is read back as it was. -/
theorem read_document_checkpoint (hwell : entry.WellFormed) (hplain : Plain entry) :
    read_document (checkpoint_bytes entry) = .ok (checkpoint_document entry) := by
  have hdocument := checkpoint_wellFormed hwell
  simp only [read_document, checkpoint_bytes, encode, Json.fromUTF8_flatMap,
    strict_json_loads_canonical hdocument, Except.ok_bind, Json.ordered_eq_self _ hdocument]
  exact (copy_metadata_eq_ok hdocument).mpr ⟨checkpoint_plain hplain, rfl⟩

end Documents

end discovery
