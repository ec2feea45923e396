import PepeuchCluster.Bench.Ingestion

namespace bench

/-- The rows of a database to which the first `count` batches were applied. -/
def receipts_of (batches : List Batch) (count : Nat) : List Receipt :=
  manifest batches :: (batches.take count).map Batch.receipt

/-- The first `count` batches of the plan were applied, in order and each once. -/
structure Delivered (batches : List Batch) (count : Nat) (db : Database) : Prop where
  count_le : count ≤ batches.length
  receipts : db.receipts = receipts_of batches count
  applied : db.applied = batches.take count

/-- The database belongs to another manifest. -/
def Elsewhere (batches : List Batch) (db : Database) : Prop :=
  ∃ row rest, db.receipts = row :: rest ∧ row.batch_id = "manifest" ∧ row ≠ manifest batches

/-- What a client may have under way; `others` tells whether there are other manifests. -/
def Permitted (batches : List Batch) (others : Prop) (db : Database) : Command → Prop
  | .create receipt => receipt.batch_id = "manifest" ∧ (receipt = manifest batches ∨ others)
  | .commit batch => (Elsewhere batches db ∧ others) ∨
      ∃ index : Nat, batches[index]? = some batch ∧ receipts_of batches index <+: db.receipts

structure Valid (batches : List Batch) (others : Prop) (db : Database) : Prop where
  flight : ∀ command ∈ db.flight, Permitted batches others db command
  state : (db.receipts = [] ∧ db.applied = []) ∨ (Elsewhere batches db ∧ others) ∨
    ∃ count, Delivered batches count db

/-- Rows and batches are only added. -/
def Grows (db db' : Database) : Prop := db.receipts <+: db'.receipts ∧ db.applied <+: db'.applied

/-- The database belongs to the plan. -/
def Claimed (batches : List Batch) (db : Database) : Prop :=
  db.receipts.head? = some (manifest batches)

variable {batches other : List Batch} {others : Prop} {db db' start : Database}
  {command : Command} {count : Nat}

theorem Grows.refl (db : Database) : Grows db db := ⟨List.prefix_rfl, List.prefix_rfl⟩

theorem Grows.trans {db'' : Database} (h : Grows db db') (h' : Grows db' db'') : Grows db db'' :=
  ⟨h.1.trans h'.1, h.2.trans h'.2⟩

theorem Elsewhere.grow (h : Elsewhere batches db) (hgrows : Grows db db') :
    Elsewhere batches db' := by
  obtain ⟨row, rest, hreceipts, hid, hne⟩ := h
  obtain ⟨⟨tail, htail⟩, _⟩ := hgrows
  exact ⟨row, rest ++ tail, by rw [← htail, hreceipts, List.cons_append], hid, hne⟩

theorem Claimed.grow (h : Claimed batches db) (hgrows : Grows db db') : Claimed batches db' := by
  obtain ⟨⟨tail, htail⟩, _⟩ := hgrows
  unfold Claimed at h ⊢
  rw [← htail, List.head?_append, h, Option.some_or]

theorem Elsewhere.not_claimed (h : Elsewhere batches db) : ¬ Claimed batches db := by
  obtain ⟨row, rest, hreceipts, _, hne⟩ := h
  intro hclaimed
  rw [Claimed, hreceipts] at hclaimed
  exact hne (Option.some.inj hclaimed)

theorem Delivered.claimed (h : Delivered batches count db) : Claimed batches db := by
  rw [Claimed, h.receipts]
  rfl

theorem Permitted.grow (h : Permitted batches others db command) (hgrows : Grows db db') :
    Permitted batches others db' command := by
  cases command with
  | create receipt => exact h
  | commit batch =>
    obtain ⟨helsewhere, hothers⟩ | ⟨index, hbatch, hheld⟩ := h
    · exact .inl ⟨helsewhere.grow hgrows, hothers⟩
    · exact .inr ⟨index, hbatch, hheld.trans hgrows.1⟩

theorem receipts_of_length (h : count ≤ batches.length) :
    (receipts_of batches count).length = count + 1 := by
  simp [receipts_of, h]

theorem receipts_of_succ {batch : Batch} (h : batches[count]? = some batch) :
    receipts_of batches (count + 1) = receipts_of batches count ++ [batch.receipt] := by
  simp [receipts_of, List.take_add_one, h]

theorem receipts_of_mono {index : Nat} (h : index ≤ count) :
    receipts_of batches index <+: receipts_of batches count := by
  have htake : batches.take index <+: batches.take count := by
    rw [← Nat.min_eq_left h, ← List.take_take]
    exact List.take_prefix _ _
  exact List.cons_prefix_cons.mpr ⟨rfl, htake.map _⟩

theorem count_le_of_receipts {index : Nat} (hindex : index ≤ batches.length)
    (hcount : count ≤ batches.length)
    (h : receipts_of batches index <+: receipts_of batches count) : index ≤ count := by
  have hlength := h.length_le
  rw [receipts_of_length hindex, receipts_of_length hcount] at hlength
  omega

/-- A batch that was applied has its receipt. -/
theorem Delivered.has (h : Delivered batches count db) {index : Nat} {batch : Batch}
    (hindex : index < count) (hbatch : batches[index]? = some batch) : db.has batch.batch_id := by
  refine ⟨batch.receipt, ?_, rfl⟩
  rw [h.receipts]
  refine List.mem_cons_of_mem _ (List.mem_map_of_mem (List.mem_of_getElem? (i := index) ?_))
  rw [List.getElem?_take, if_pos hindex, hbatch]

/-- The next batch is the only one that can be applied. -/
theorem Delivered.commit (h : Delivered batches count db) {batch : Batch}
    (hpermitted : Permitted batches others db (.commit batch))
    (hexecute : db.execute (.commit batch) = some db') :
    batches[count]? = some batch ∧ Delivered batches (count + 1) db' := by
  obtain ⟨helsewhere, _⟩ | ⟨index, hbatch, hheld⟩ := hpermitted
  · exact absurd h.claimed helsewhere.not_claimed
  have hlt : index < batches.length := (List.getElem?_eq_some_iff.mp hbatch).1
  rw [h.receipts] at hheld
  have hle := count_le_of_receipts hlt.le h.count_le hheld
  have hfresh : ¬ db.has batch.batch_id := by
    intro hhas
    simp [Database.execute, hhas] at hexecute
  have heq : index = count := by
    by_contra hne
    exact hfresh (h.has (by omega) hbatch)
  subst heq
  refine ⟨hbatch, ?_⟩
  simp only [Database.execute, if_neg hfresh, Option.some.injEq] at hexecute
  subst hexecute
  refine ⟨hlt, ?_, ?_⟩
  · rw [h.receipts, ← receipts_of_succ hbatch]
  · rw [h.applied, List.take_add_one, hbatch, Option.toList_some]

theorem execute_grows (h : db.execute command = some db') :
    Grows db db' ∧ db'.flight = db.flight := by
  cases command with
  | create receipt =>
    by_cases hhas : db.has receipt.batch_id
    · simp [Database.execute, hhas] at h
    · simp only [Database.execute, if_neg hhas, Option.some.injEq] at h
      subst h
      exact ⟨⟨List.prefix_append _ _, List.prefix_rfl⟩, rfl⟩
  | commit batch =>
    by_cases hhas : db.has batch.batch_id
    · simp [Database.execute, hhas] at h
    · simp only [Database.execute, if_neg hhas, Option.some.injEq] at h
      subst h
      exact ⟨⟨List.prefix_append _ _, List.prefix_append _ _⟩, rfl⟩

theorem Valid.execute (h : Valid batches others db)
    (hpermitted : Permitted batches others db command) (hexecute : db.execute command = some db') :
    Valid batches others db' := by
  obtain ⟨hgrows, hflight⟩ := execute_grows hexecute
  refine ⟨fun held hheld => (h.flight held (hflight ▸ hheld)).grow hgrows, ?_⟩
  obtain ⟨hreceipts, happlied⟩ | ⟨helsewhere, hothers⟩ | ⟨count, hdelivered⟩ := h.state
  · cases command with
    | create receipt =>
      obtain ⟨hid, hreceipt⟩ := hpermitted
      have hfresh : ¬ db.has receipt.batch_id := by simp [Database.has, hreceipts]
      simp only [Database.execute, if_neg hfresh, Option.some.injEq] at hexecute
      subst hexecute
      by_cases hmanifest : receipt = manifest batches
      · subst hmanifest
        exact .inr
          (.inr ⟨0, Nat.zero_le _, by simp [hreceipts, receipts_of], by simpa using happlied⟩)
      · exact .inr (.inl
          ⟨⟨receipt, [], by simp [hreceipts], hid, hmanifest⟩, hreceipt.resolve_left hmanifest⟩)
    | commit batch =>
      obtain ⟨⟨row, rest, hrow, _⟩, _⟩ | ⟨index, _, hheld⟩ := hpermitted
      · rw [hreceipts] at hrow
        cases hrow
      · rw [hreceipts] at hheld
        exact absurd (List.prefix_nil.mp hheld) (List.cons_ne_nil _ _)
  · exact .inr (.inl ⟨helsewhere.grow hgrows, hothers⟩)
  · cases command with
    | create receipt =>
      have hhas : db.has receipt.batch_id := by
        refine ⟨manifest batches, ?_, hpermitted.1.symm⟩
        rw [hdelivered.receipts]
        exact List.mem_cons_self
      simp [Database.execute, hhas] at hexecute
    | commit batch => exact .inr (.inr ⟨count + 1, (hdelivered.commit hpermitted hexecute).2⟩)

theorem Valid.waiting (h : Valid batches others db) {flight : List Command}
    (hflight : ∀ command ∈ flight, Permitted batches others db command) :
    Valid batches others { db with flight := flight } := by
  refine ⟨hflight, ?_⟩
  obtain hnil | helsewhere | ⟨count, hdelivered⟩ := h.state
  · exact .inl hnil
  · exact .inr (.inl helsewhere)
  · exact .inr (.inr ⟨count, hdelivered.count_le, hdelivered.receipts, hdelivered.applied⟩)

/-- Whatever happens to a permitted statement; an answer tells that it took effect. -/
theorem Valid.submit (h : Valid batches others db)
    (hpermitted : Permitted batches others db command) (fate : Fate) :
    Valid batches others (db.submit command fate).2 ∧ Grows db (db.submit command fate).2 ∧
      ((db.submit command fate).1 = .ok () →
        db.execute command = some (db.submit command fate).2) := by
  have hsame := And.intro h (Grows.refl db)
  have heffect : Valid batches others ((db.execute command).getD db) ∧
      Grows db ((db.execute command).getD db) := by
    cases hexecute : db.execute command with
    | none => exact hsame
    | some after => exact ⟨h.execute hpermitted hexecute, (execute_grows hexecute).1⟩
  cases fate with
  | answered =>
    refine ⟨heffect.1, heffect.2, fun hok => ?_⟩
    cases hexecute : db.execute command with
    | none => simp [Database.submit, hexecute] at hok
    | some after => simp [Database.submit, hexecute]
  | refused => exact ⟨hsame.1, hsame.2, nofun⟩
  | lost => exact ⟨hsame.1, hsame.2, nofun⟩
  | unanswered => exact ⟨heffect.1, heffect.2, nofun⟩
  | detached =>
    refine ⟨h.waiting fun held hheld => ?_, Grows.refl db, nofun⟩
    obtain hheld | hheld := List.mem_append.mp hheld
    · exact h.flight held hheld
    · obtain rfl := List.mem_singleton.mp hheld
      exact hpermitted

theorem Valid.settle (h : Valid batches others db) (settlement : Settlement) :
    Valid batches others (db.settle settlement) ∧ Grows db (db.settle settlement) := by
  unfold Database.settle
  cases hfound : db.flight[settlement.index]? with
  | none => exact ⟨h, Grows.refl db⟩
  | some held =>
    have hpermitted := h.flight held (List.mem_of_getElem? hfound)
    have hleft : Valid batches others { db with flight := db.flight.eraseIdx settlement.index } :=
      h.waiting fun other hother => h.flight other (List.mem_of_mem_eraseIdx hother)
    cases settlement.committed with
    | false => exact ⟨hleft, Grows.refl db⟩
    | true =>
      dsimp only
      cases hexecute :
        Database.execute { db with flight := db.flight.eraseIdx settlement.index } held with
      | none => exact ⟨hleft, Grows.refl db⟩
      | some after => exact ⟨hleft.execute hpermitted hexecute, (execute_grows hexecute).1⟩

/-- A manifest that is read alone is the first row. -/
theorem Valid.manifest_read (h : Valid batches others db) {row : Receipt}
    (hrow : (db.receipts.filter fun receipt => receipt.batch_id = "manifest") = [row]) :
    db.receipts.head? = some row := by
  have hfirst : ∀ first rest, db.receipts = first :: rest → first.batch_id = "manifest" := by
    intro first rest hreceipts
    obtain ⟨hnil, _⟩ | ⟨⟨row, rest', hrow, hid, _⟩, _⟩ | ⟨count, hdelivered⟩ := h.state
    · rw [hnil] at hreceipts
      cases hreceipts
    · rw [hrow] at hreceipts
      obtain ⟨rfl, _⟩ := List.cons.inj hreceipts
      exact hid
    · have heq := hdelivered.receipts.symm.trans hreceipts
      rw [← (List.cons.inj heq).1]
      rfl
  cases hreceipts : db.receipts with
  | nil =>
    rw [hreceipts] at hrow
    cases hrow
  | cons first rest =>
    rw [hreceipts, List.filter_cons_of_pos (by simpa using hfirst first rest hreceipts)] at hrow
    rw [(List.cons.inj hrow).1]
    rfl

theorem Valid.delivered (h : Valid batches others db) (hclaimed : Claimed batches db) :
    ∃ count, Delivered batches count db := by
  obtain ⟨hnil, _⟩ | ⟨helsewhere, _⟩ | hdelivered := h.state
  · rw [Claimed, hnil] at hclaimed
    cases hclaimed
  · exact absurd hclaimed helsewhere.not_claimed
  · exact hdelivered

end bench
