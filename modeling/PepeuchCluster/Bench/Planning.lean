import PepeuchCluster.Bench.Batches

namespace bench

open control_plane (encode canonical encode_append encode_canonical_length)

/-! ### Cutting statements into batches -/

/-- The bytes that statements take, each with its separator. -/
def total (statements : List String) : Nat :=
  (statements.map fun statement => (encode statement).length + 1).sum

/-- A statement that no batch can hold. -/
def Oversized (max_bytes : Int) (statement : String) : Prop :=
  max_bytes < (encode statement).length + 1

/-- A batch within its budget. -/
structure Within (max_bytes max_statements : Int) (batch : List String) : Prop where
  nonempty : batch ≠ []
  bytes : total batch ≤ max_bytes
  statements : batch.length ≤ max_statements

/-- The statements, whole and in order, in batches within their budget. -/
structure Cut (statements : List String) (max_bytes max_statements : Int)
    (groups : List (List String)) : Prop where
  whole : groups.flatten = statements
  within : ∀ batch ∈ groups, Within max_bytes max_statements batch

section Batches

variable {max_bytes max_statements : Int} {statements batch : List String}

theorem total_append (statements others : List String) :
    total (statements ++ others) = total statements + total others := by
  rw [total, List.map_append, List.sum_append, total, total]

theorem total_singleton (statement : String) :
    total [statement] = (encode statement).length + 1 := by
  rw [total, List.map_singleton, List.sum_singleton]

theorem encode_newline : (encode "\n").length = 1 := by decide +kernel

/-- The text of a batch takes a byte less than its statements with their separators. -/
theorem encode_intercalate (h : batch ≠ []) :
    (encode ("\n".intercalate batch)).length + 1 = total batch := by
  induction batch with
  | nil => exact absurd rfl h
  | cons statement rest ih =>
    by_cases hrest : rest = []
    · subst hrest
      rw [String.intercalate_singleton, total_singleton]
    · have hbody := ih hrest
      have hsplit : total (statement :: rest) = (encode statement).length + 1 + total rest := by
        rw [← List.singleton_append, total_append, total_singleton]
      rw [String.intercalate_cons_of_ne_nil hrest, encode_append, encode_append, List.length_append,
        List.length_append, encode_newline, hsplit]
      omega

/-- The loop raises at the first statement that is oversized. -/
theorem sql_batches_from_error (h : ∃ statement ∈ statements, Oversized max_bytes statement) :
    ∀ (batch : List String) (size : Nat), ∃ failure,
      sql_batches_from max_bytes max_statements statements batch size = .error failure := by
  induction statements with
  | nil =>
    obtain ⟨_, hmem, _⟩ := h
    cases hmem
  | cons statement rest ih =>
    intro batch size
    rw [sql_batches_from]
    by_cases hover : ((encode statement).length + 1 : Nat) > max_bytes
    · rw [if_pos hover]
      exact ⟨_, rfl⟩
    · have hrest : ∃ statement ∈ rest, Oversized max_bytes statement := by
        obtain ⟨other, hmem, hoversized⟩ := h
        obtain rfl | hmem := List.mem_cons.mp hmem
        · exact absurd (by exact_mod_cast hoversized) hover
        · exact ⟨other, hmem, hoversized⟩
      rw [if_neg hover]
      dsimp only
      split
      · obtain ⟨failure, hfailure⟩ := ih hrest [statement] ((encode statement).length + 1)
        rw [hfailure]
        exact ⟨failure, rfl⟩
      · exact ih hrest _ _

/-- Where no statement is oversized, the loop cuts what it has gathered and what is left. -/
theorem sql_batches_from_ok (hpositive : 1 ≤ max_statements)
    (h : ∀ statement ∈ statements, ¬ Oversized max_bytes statement) :
    ∀ (batch : List String), (batch ≠ [] → Within max_bytes max_statements batch) →
      ∃ groups, sql_batches_from max_bytes max_statements statements batch (total batch) =
        .ok (groups.map "\n".intercalate) ∧
          Cut (batch ++ statements) max_bytes max_statements groups := by
  induction statements with
  | nil =>
    intro batch hbatch
    rw [sql_batches_from]
    by_cases hempty : batch = []
    · exact ⟨[], congrArg Except.ok (if_pos hempty), by simp [hempty], List.forall_mem_nil _⟩
    · exact ⟨[batch], congrArg Except.ok (if_neg hempty), by simp,
        List.forall_mem_singleton.mpr (hbatch hempty)⟩
  | cons statement rest ih =>
    intro batch hbatch
    obtain ⟨hstatement, hrest⟩ := List.forall_mem_cons.mp h
    have hfits : ¬ ((encode statement).length + 1 : Nat) > max_bytes := by
      rw [Oversized] at hstatement
      push_cast
      exact hstatement
    rw [sql_batches_from]
    dsimp only
    rw [if_neg hfits]
    have hsingle : Within max_bytes max_statements [statement] :=
      ⟨List.cons_ne_nil _ _, by rw [total_singleton]; exact not_lt.mp hfits, by
        simpa using hpositive⟩
    split
    · next hflush =>
      obtain ⟨groups, hgroups, hwhole, hwithin⟩ := ih hrest [statement] fun _ => hsingle
      rw [total_singleton] at hgroups
      refine ⟨batch :: groups, ?_, ?_, List.forall_mem_cons.mpr ⟨hbatch hflush.1, hwithin⟩⟩
      · rw [hgroups]
        rfl
      · rw [List.flatten_cons, hwhole]
        rfl
    · next hkeep =>
      have hgrown : Within max_bytes max_statements (batch ++ [statement]) := by
        by_cases hempty : batch = []
        · rw [hempty]
          exact hsingle
        · have hroom := not_or.mp (not_and.mp hkeep hempty)
          obtain ⟨hbytes, hcount⟩ := hroom
          refine ⟨by simp, ?_, ?_⟩
          · rw [total_append, total_singleton]
            omega
          · rw [List.length_append, List.length_singleton]
            omega
      obtain ⟨groups, hgroups, hwhole, hwithin⟩ := ih hrest (batch ++ [statement]) fun _ => hgrown
      rw [total_append, total_singleton] at hgroups
      exact ⟨groups, hgroups, by rw [hwhole, List.append_assoc]; rfl, hwithin⟩

/-- The batches joined are the statements joined. -/
theorem Cut.joined {groups : List (List String)}
    (h : Cut statements max_bytes max_statements groups) :
    "\n".intercalate (groups.map "\n".intercalate) = "\n".intercalate statements := by
  obtain ⟨rfl, hwithin⟩ := h
  induction groups with
  | nil => rfl
  | cons batch rest ih =>
    obtain ⟨hbatch, hrest⟩ := List.forall_mem_cons.mp hwithin
    rw [List.map_cons, List.flatten_cons]
    cases rest with
    | nil => rw [List.map_nil, String.intercalate_singleton, List.flatten_nil, List.append_nil]
    | cons other rest =>
      have hother := (hrest other List.mem_cons_self).nonempty
      have hflatten : (other :: rest).flatten ≠ [] := by
        rw [List.flatten_cons]
        exact List.append_ne_nil_of_left_ne_nil hother _
      rw [String.intercalate_append_of_ne_nil hbatch.nonempty hflatten, ← ih hrest,
        String.intercalate_cons_of_ne_nil (by simp)]

theorem Cut.bounded {groups : List (List String)}
    (h : Cut statements max_bytes max_statements groups) :
    ∀ body ∈ groups.map "\n".intercalate, (encode body).length < max_bytes := by
  refine List.forall_mem_map.mpr fun batch hbatch => ?_
  obtain ⟨hnonempty, hbytes, _⟩ := h.within batch hbatch
  have hlength := encode_intercalate hnonempty
  omega

/-- The batches are refused exactly where a statement is oversized, and cut otherwise. -/
theorem sql_batches_cases (statements : List String) (max_bytes : Int) (h : 1 ≤ max_statements) :
    (∃ statement ∈ statements, Oversized max_bytes statement) ∧
        (∃ failure, sql_batches statements max_bytes max_statements = .error failure) ∨
      (∀ statement ∈ statements, ¬ Oversized max_bytes statement) ∧
        ∃ groups,
          sql_batches statements max_bytes max_statements = .ok (groups.map "\n".intercalate) ∧
          Cut statements max_bytes max_statements groups := by
  by_cases hoversized : ∃ statement ∈ statements, Oversized max_bytes statement
  · exact .inl ⟨hoversized, sql_batches_from_error hoversized [] 0⟩
  · have hnone : ∀ statement ∈ statements, ¬ Oversized max_bytes statement :=
      fun statement hmem hover =>
      hoversized ⟨statement, hmem, hover⟩
    exact .inr ⟨hnone, sql_batches_from_ok h hnone [] fun hne => absurd rfl hne⟩

end Batches

/-! ### The wrapped transaction -/

section Transaction

variable {index : Nat} {sql : String}

/-- The number of a batch below 10^9 is written in at most nine digits. -/
theorem digits_nine (h : index < 10 ^ 9) : (Calendar.digits 6 index).length ≤ 9 := by
  have hlength : (Nat.toDigits 10 index).length ≤ 9 :=
    (Nat.length_toDigits_le_iff (by decide) (by decide)).mpr h
  rw [Calendar.digits, List.length_append, List.length_replicate]
  omega

theorem isHex_batch_id {c : Char} (h : c ∈ (batch_id_of index).toList) : Sha256.isHex c = true := by
  rw [batch_id_of, String.toList_ofList, Calendar.digits] at h
  obtain rfl | h := List.mem_cons.mp h
  · rfl
  · obtain h | h := List.mem_append.mp h
    · rw [List.eq_of_mem_replicate h]
      rfl
    · exact Json.isHex_toDigits h

theorem batch_id_length (h : index < 10 ^ 9) : (encode (batch_id_of index)).length ≤ 10 := by
  have hdigits := digits_nine h
  have hlength : (encode (batch_id_of index)).length = (batch_id_of index).toList.length :=
    Json.utf8_length_digits fun _ => isHex_batch_id
  rw [hlength, batch_id_of, String.toList_ofList, List.length_cons]
  omega

/-- The receipt of a batch takes little. -/
theorem receipt_length (hindex : index < 10 ^ 9) (hsql : (encode sql).length ≤ MAX_BODY_BYTES) :
    (encode (canonical (batch_of index sql).receipt.json)).length ≤ 338 := by
  have hid : Json.utf8_length (Json.render (.str (batch_id_of index))) ≤ 66 := by
    have hdigits := digits_nine hindex
    rw [Json.utf8_length_hex fun _ => isHex_batch_id, batch_id_of, String.toList_ofList,
      List.length_cons]
    omega
  have hsha : Json.utf8_length (Json.render (.str (sha256 (encode sql)))) ≤ 66 := by
    rw [Json.utf8_length_hex fun _ => Sha256.sha256_isHex, Sha256.sha256_length]
  have hnumber : ∀ {n : Nat}, n < 10 ^ 9 →
      Json.utf8_length (Json.render (.number (.int n))) ≤ 66 := by
    intro n hn
    have hlength : (Nat.toDigits 10 n).length ≤ 9 :=
      (Nat.length_toDigits_le_iff (by decide) (by decide)).mpr hn
    rw [Json.utf8_length_natural]
    omega
  have hbytes : (encode sql).length < 10 ^ 9 := hsql.trans_lt (by decide)
  have hfields :
    ∀ field ∈ [("batch_id", Json.str (batch_id_of index)), ("seq_no", .number (.int index)),
      ("payload_sha256", .str (sha256 (encode sql))),
        ("body_bytes", .number (.int (encode sql).length))],
      Json.utf8_length (Json.renderString field.1) ≤ 16 ∧
        Json.utf8_length (Json.render field.2) ≤ 66 := by
    simp only [List.forall_mem_cons]
    exact ⟨⟨by decide +kernel, hid⟩, ⟨by decide +kernel, hnumber hindex⟩, ⟨by decide +kernel, hsha⟩,
      ⟨by decide +kernel, hnumber hbytes⟩, List.forall_mem_nil _⟩
  have hlength := Json.utf8_length_dict_le 16 66 hfields
  have hfour : 4 * (16 + 66 + 2) + 2 = 338 := rfl
  rw [encode_canonical_length]
  exact hlength.trans hfour.le

/-- What an engine's statement adds to the receipt. -/
theorem insert_receipt_length {engine : String}
    (hengine : engine = "postgresql" ∨ engine = "surrealdb") (hindex : index < 10 ^ 9)
    (hsql : (encode sql).length ≤ MAX_BODY_BYTES) :
    ∃ statement, insert_receipt engine (batch_of index sql).receipt = .ok statement ∧
      (encode statement).length ≤ 1000 := by
  have hreceipt := receipt_length hindex hsql
  have hid : (encode (batch_of index sql).receipt.batch_id).length ≤ 10 := batch_id_length hindex
  unfold insert_receipt
  dsimp only
  obtain rfl | rfl := hengine
  · refine ⟨_, if_pos rfl, ?_⟩
    have hhead : (encode "INSERT INTO bench_batch_receipt SELECT * FROM jsonb_to_record('").length ≤
        100 := by decide +kernel
    have hcast : (encode "'::jsonb) AS x(").length ≤ 100 := by decide +kernel
    have htail :
        (encode "batch_id text,payload_sha256 text,seq_no integer,body_bytes integer);").length ≤
        100 := by decide +kernel
    simp only [encode_append, List.length_append]
    omega
  · refine ⟨_, (if_neg (by decide)).trans (if_pos rfl), ?_⟩
    have hhead : (encode "CREATE bench_batch_receipt:").length ≤ 100 := by decide +kernel
    have hcontent : (encode " CONTENT ").length ≤ 100 := by decide +kernel
    have htail : (encode " RETURN NONE;").length ≤ 100 := by decide +kernel
    simp only [encode_append, List.length_append]
    omega

/-- A planned batch fits into its transaction. -/
theorem transaction_ok {engine : String} (hengine : engine = "postgresql" ∨ engine = "surrealdb")
    (hindex : index < 10 ^ 9) (hsql : (encode sql).length ≤ MAX_BODY_BYTES - RESERVED_BYTES)
    (inject_failure : Bool) :
    ∃ body, transaction engine (batch_of index sql) inject_failure = .ok body := by
  obtain ⟨statement, hstatement, hlength⟩ :=
    insert_receipt_length hengine hindex (hsql.trans (Nat.sub_le _ _))
  have hwrap : (encode (BEGIN_COMMIT engine).1).length ≤ 100 ∧
      (encode (BEGIN_COMMIT engine).2).length ≤ 100 := by
    obtain rfl | rfl := hengine <;> decide +kernel
  let failure := if engine = "postgresql" then "SELECT 1/0;"
    else "THROW 'synthetic-atomic-batch-failure';"
  let body := (BEGIN_COMMIT engine).1 ++ "\n" ++ sql ++ "\n" ++
    (if inject_failure then failure ++ "\n" else "") ++ statement ++ "\n" ++
    (BEGIN_COMMIT engine).2
  have hfailure : (encode (if inject_failure then failure ++ "\n" else "")).length ≤ 100 := by
    obtain rfl | rfl := hengine <;> cases inject_failure <;> decide +kernel
  have hbody : ¬ (encode body).length > MAX_BODY_BYTES := by
    have hreserved : MAX_BODY_BYTES - RESERVED_BYTES + 2048 = MAX_BODY_BYTES := by decide
    simp only [body, encode_append, List.length_append, encode_newline]
    omega
  refine ⟨body, ?_⟩
  rw [transaction]
  dsimp only
  rw [hstatement, Except.ok_bind]
  exact if_neg hbody

end Transaction

/-- A batch of a plan with fewer than 10^9 batches fits into its transaction. -/
theorem plan_fits {statements : List String} {max_statements : Int} {batches : List Batch}
    (h : 1 ≤ max_statements) (hplan : plan statements max_statements = .ok batches)
    (hcount : batches.length < 10 ^ 9) {batch : Batch} (hbatch : batch ∈ batches)
    {engine : String} (hengine : engine = "postgresql" ∨ engine = "surrealdb")
    (inject_failure : Bool) :
    ∃ body, transaction engine batch inject_failure = .ok body := by
  simp only [plan, Except.bind_eq_ok] at hplan
  obtain ⟨bodies, hbodies, hresult⟩ := hplan
  obtain rfl : bodies.mapIdx batch_of = batches := by
    split at hresult
    · cases hresult
    · exact Except.pure_eq_ok.mp hresult
  obtain ⟨index, hindex, rfl⟩ := List.mem_iff_getElem.mp hbatch
  rw [List.length_mapIdx] at hindex hcount
  rw [List.getElem_mapIdx]
  obtain ⟨_, _, herror⟩ | ⟨_, groups, hgroups, hcut⟩ :=
    sql_batches_cases statements (MAX_BODY_BYTES - RESERVED_BYTES) h
  · rw [hbodies] at herror
    cases herror
  · obtain rfl : bodies = groups.map "\n".intercalate := Except.ok.inj (hbodies.symm.trans hgroups)
    have hbounded := hcut.bounded _ (List.getElem_mem hindex)
    have hreserved : ((MAX_BODY_BYTES - RESERVED_BYTES : Nat) : Int) =
        (MAX_BODY_BYTES : Int) - RESERVED_BYTES := by decide
    exact transaction_ok hengine (hindex.trans hcount) (by omega) inject_failure

/-- Statements are refused exactly where one is oversized; otherwise they are cut into batches
    within their budget, and the batches of a plan fit into their transactions. -/
theorem batch_planning (statements : List String) (max_bytes max_statements : Int)
    (h : 1 ≤ max_statements) :
    ((∃ failure, sql_batches statements max_bytes max_statements = .error failure) ↔
        ∃ statement ∈ statements, max_bytes < (encode statement).length + 1) ∧
      (∀ bodies, sql_batches statements max_bytes max_statements = .ok bodies →
        "\n".intercalate bodies = "\n".intercalate statements ∧
          (∃ groups, bodies = groups.map "\n".intercalate ∧
            Cut statements max_bytes max_statements groups) ∧ ∀ body ∈ bodies,
          (encode body).length ≤ max_bytes) ∧
        ∀ batches, plan statements max_statements = .ok batches → batches.length < 10 ^ 9 →
        ∀ batch ∈ batches,
          ∀ engine, engine = "postgresql" ∨ engine = "surrealdb" → ∀ inject_failure,
            ∃ body, transaction engine batch inject_failure = .ok body := by
  refine ⟨?_, ?_,
    fun batches hplan hcount batch hbatch engine hengine => plan_fits h hplan hcount hbatch hengine⟩
  · obtain ⟨hoversized, hraises⟩ | ⟨hnone, groups, hgroups, _⟩ :=
      sql_batches_cases statements max_bytes h
    · exact ⟨fun _ => hoversized, fun _ => hraises⟩
    · refine ⟨fun ⟨_, herror⟩ => ?_,
        fun ⟨statement, hmem, hover⟩ => absurd hover (hnone statement hmem)⟩
      rw [hgroups] at herror
      cases herror
  · intro bodies hbodies
    obtain ⟨_, _, herror⟩ | ⟨_, groups, hgroups, hcut⟩ := sql_batches_cases statements max_bytes h
    · rw [hbodies] at herror
      cases herror
    · obtain rfl : bodies = groups.map "\n".intercalate :=
        Except.ok.inj (hbodies.symm.trans hgroups)
      exact ⟨hcut.joined, ⟨groups, rfl, hcut⟩, fun body hbody => (hcut.bounded body hbody).le⟩

/-- Two statements in a batch each, whose transactions are made even with a failure in them. -/
theorem batch_planning_two :
    (∃ groups, ["SELECT 1;", "SELECT 2;"] = groups.map "\n".intercalate ∧
      Cut ["SELECT 1;", "SELECT 2;"] 10 1 groups) ∧
    ∃ body, transaction "surrealdb" (batch_of 1 "SELECT 2;") true = .ok body := by
  have hplan : plan ["SELECT 1;", "SELECT 2;"] 1 =
      .ok [batch_of 0 "SELECT 1;", batch_of 1 "SELECT 2;"] := rfl
  have hplanning := batch_planning ["SELECT 1;", "SELECT 2;"] 10 1 (by decide)
  exact ⟨(hplanning.2.1 _ rfl).2.1, hplanning.2.2 _ hplan (by decide) _ (by simp) _ (.inr rfl) true⟩

end bench
