import PepeuchCluster.Bench.Delivery

namespace bench

open Program (Safe)

def growth (batches : List Batch) (others : Prop) : Program.Growth Database where
  valid := Valid batches others
  grows := Grows
  refl := Grows.refl
  trans _ _ _ := Grows.trans

/-- Every call but the commit of a batch. -/
def Quiet (op : Request) : Prop := ∀ statement batch, op ≠ .execute statement (.commit batch)

/-- The rows of the batches, as a client reads them. -/
def Database.batch_receipts (db : Database) : List Receipt :=
  (db.receipts.filter fun receipt => receipt.batch_id ≠ "manifest").insertionSort
    fun receipt other => receipt.seq_no ≤ other.seq_no

theorem Delivered.batch_receipts {p : BatchPlan} {db : Database} {count : Nat}
    (h : Delivered p.batches count db) :
    db.batch_receipts = (p.batches.take count).map Batch.receipt := by
  have hname : ∀ receipt ∈ (p.batches.take count).map Batch.receipt,
      receipt.batch_id ≠ "manifest" := by
    intro receipt hreceipt
    obtain ⟨batch, hbatch, rfl⟩ := List.mem_map.mp hreceipt
    obtain ⟨index, hindex⟩ := List.mem_iff_getElem?.mp (List.mem_of_mem_take hbatch)
    rw [Batch.receipt, (p.numbered hindex).2]
    exact batch_id_ne_manifest index
  have hfilter : (db.receipts.filter fun receipt => receipt.batch_id ≠ "manifest") =
      (p.batches.take count).map Batch.receipt := by
    rw [h.receipts, receipts_of, List.filter_cons_of_neg (by simp [manifest]), List.filter_eq_self]
    exact fun receipt hreceipt => decide_eq_true (hname receipt hreceipt)
  rw [Database.batch_receipts, hfilter]
  refine List.Pairwise.insertionSort_eq (List.pairwise_iff_getElem.mpr fun i j hi hj hij => ?_)
  have hnumber : ∀ k (hk : k < ((p.batches.take count).map Batch.receipt).length),
      ((p.batches.take count).map Batch.receipt)[k].seq_no = k := by
    intro k hk
    have hlength : k < p.batches.length := by
      simp at hk
      omega
    have hbatch : p.batches[k]? = some p.batches[k] := List.getElem?_eq_getElem hlength
    simp [Batch.receipt, (p.numbered hbatch).1]
  rw [hnumber i hi, hnumber j hj]
  exact_mod_cast hij.le

section Calls

variable {batches : List Batch} {others : Prop} {admitted : Request → Database → Prop}
  {P : Database → Prop}
  (hquiet : ∀ op s, Quiet op → admitted op s)
include hquiet

theorem query_safe {batch_id : String} {Q : Except Failure (List Receipt) → Database → Prop}
    (hstable : ∀ answer, (growth batches others).Stable (Q answer))
    (hok : ∀ s, Valid batches others s → P s →
      Q (.ok (s.receipts.filter fun receipt => receipt.batch_id = batch_id)) s)
    (herror : ∀ e s, P s → Q (.error e) s) :
    Safe engine (growth batches others) admitted Q (query batch_id) P := by
  refine Safe.request (fun s _ _ => hquiet _ s nofun) hstable fun fate s hs hp => ?_
  cases fate with
  | answered => exact ⟨hs, Grows.refl s, hok s hs hp⟩
  | refused | lost | unanswered | detached => exact ⟨hs, Grows.refl s, herror _ s hp⟩

theorem query_batches_safe {Q : Except Failure (List Receipt) → Database → Prop}
    (hstable : ∀ answer, (growth batches others).Stable (Q answer))
    (hok : ∀ s, Valid batches others s → P s → Q (.ok s.batch_receipts) s)
    (herror : ∀ e s, P s → Q (.error e) s) :
    Safe engine (growth batches others) admitted Q query_batches P := by
  refine Safe.request (fun s _ _ => hquiet _ s nofun) hstable fun fate s hs hp => ?_
  cases fate with
  | answered => exact ⟨hs, Grows.refl s, hok s hs hp⟩
  | refused | lost | unanswered | detached => exact ⟨hs, Grows.refl s, herror _ s hp⟩

theorem acknowledge_safe (hP : (growth batches others).Stable P) (on_receipt : Bool)
    (receipt : Receipt) :
    Safe engine (growth batches others) admitted (fun _ => P)
      (acknowledge on_receipt receipt) P := by
  cases on_receipt with
  | false => exact fun _ _ hp => hp
  | true =>
    refine Safe.request (fun s _ _ => hquiet _ s nofun) (fun _ => hP) fun fate s hs hp => ?_
    cases fate <;> exact ⟨hs, Grows.refl s, hp⟩

omit hquiet in
theorem execute_safe {statement : String} {command : Command} {R : Database → Prop}
    (hadmitted : ∀ s, Valid batches others s → P s → admitted (.execute statement command) s)
    (hP : (growth batches others).Stable P) (hR : (growth batches others).Stable R)
    (hpermitted : ∀ s, P s → Permitted batches others s command)
    (hnext : ∀ s t, Valid batches others s → P s → s.execute command = some t → R t) :
    Safe engine (growth batches others) admitted (fun result s => P s ∧ (result = .ok () → R s))
      (execute statement command) P := by
  refine Safe.request hadmitted
    (fun answer s t hst h => ⟨hP s t hst h.1, fun hok => hR s t hst (h.2 hok)⟩) ?_
  intro fate s hs hp
  obtain ⟨hvalid, hgrows, hok⟩ := hs.submit (hpermitted s hp) fate
  exact ⟨hvalid, hgrows, hP _ _ hgrows hp, fun h => hnext s _ hs hp (hok h)⟩

/-- A client that goes on owns the database. -/
theorem claim_manifest_safe {other : List Batch} (hP : (growth batches others).Stable P)
    (hother : manifest other = manifest batches ∨ others) (engine_name : String) :
    Safe engine (growth batches others) admitted
      (fun result s => P s ∧ (result = .ok () → Claimed other s))
      (claim_manifest engine_name other) P := by
  have hread : Safe engine (growth batches others) admitted
      (fun result s => P s ∧ (result = .ok [manifest other] → Claimed other s))
        (query "manifest") P := by
    refine query_safe hquiet
      (fun answer s t hst h => ⟨hP s t hst h.1, fun hok => (h.2 hok).grow hst⟩)
      (fun s hs hp => ⟨hp, fun hok => hs.manifest_read (Except.ok.inj hok)⟩) fun e s hp =>
        ⟨hp, nofun⟩
  have hcheck : ∀ (rows : List Receipt) (message : String),
    Safe engine (growth batches others) admitted
      (fun result s => P s ∧ (result = .ok () → Claimed other s))
      (Program.require (rows = [manifest other]) (.value_error message))
      (fun s => P s ∧
        ((.ok rows : Except Failure (List Receipt)) = .ok [manifest other] → Claimed other s)) :=
    fun rows message => Safe.require (fun s _ h hrows => ⟨h.1, fun _ => h.2 (congrArg _ hrows)⟩)
      fun s _ h _ => ⟨h.1, nofun⟩
  refine Safe.bind hread (fun current => ?_) fun e s _ h => ⟨h.1, nofun⟩
  by_cases hcurrent : current ≠ []
  · rw [if_pos hcurrent]
    exact hcheck current _
  · rw [if_neg hcurrent]
    refine Safe.bind (R := fun _ => P) (fun s _ h => h.1) (fun statement => ?_) fun e s _ h =>
      ⟨h, nofun⟩
    refine Safe.bind (R := fun result s => P s ∧ (result = .ok () → True)) ?_ (fun _ => ?_)
      fun e s _ h => ⟨h.1, nofun⟩
    · exact execute_safe (fun s _ _ => hquiet _ s nofun) hP (fun _ _ _ h => h)
        (fun _ _ => ⟨rfl, hother⟩) fun _ _ _ _ _ => trivial
    · refine Safe.bind (Safe.weaken hread (fun s _ h => h.1) fun _ _ _ h => h)
        (fun confirmed => hcheck confirmed _) ?_
      exact fun e s _ h => ⟨h.1, nofun⟩

variable {sent : List Batch} {A : Nat → Database → Prop}

/-- The batches that remain are applied one after another. -/
theorem deliver_pending_safe (hA : ∀ index, (growth batches others).Stable (A index))
    (hadmitted : ∀ index s batch statement, Valid batches others s → A index s →
      sent[index]? = some batch → admitted (.execute statement (.commit batch)) s)
    (hpermitted : ∀ index s batch, A index s → sent[index]? = some batch →
      Permitted batches others s (.commit batch))
    (hnext : ∀ index s t batch, Valid batches others s → A index s → sent[index]? = some batch →
      s.execute (.commit batch) = some t → A (index + 1) t)
    (engine_name : String) (on_receipt : Bool) (interrupt_after : Option Json) :
    ∀ (pending : List Batch) (index applied : Nat), sent.drop index = pending →
      index ≤ sent.length → Safe engine (growth batches others) admitted
        (fun result s => ∀ total, result = .ok total → total = applied + pending.length ∧
          A sent.length s)
        (deliver_pending (send engine_name) confirm (acknowledge on_receipt) interrupt_after pending
          applied) (A index) := by
  intro pending
  induction pending with
  | nil =>
    intro index applied hdrop hindex s _ h total htotal
    have hlast : index = sent.length := le_antisymm hindex (List.drop_eq_nil_iff.mp hdrop)
    exact ⟨(Except.ok.inj htotal).symm, hlast ▸ h⟩
  | cons batch pending ih =>
    intro index applied hdrop hindex
    have hbatch : sent[index]? = some batch := by
      rw [← List.head?_drop, hdrop]
      rfl
    have hrest : sent.drop (index + 1) = pending := by
      rw [← List.tail_drop, hdrop]
      rfl
    have hlt : index < sent.length := (List.getElem?_eq_some_iff.mp hbatch).1
    refine Safe.bind (R := fun result s => A index s ∧ (result = .ok () → A (index + 1) s)) ?_
      (fun _ => ?_) fun _ _ _ _ => nofun
    · refine Safe.bind (R := fun _ => A index) (fun s _ h => h) (fun statement => ?_) fun _ _ _ h =>
        ⟨h, nofun⟩
      exact execute_safe (fun s hs h => hadmitted index s batch statement hs h hbatch) (hA _) (hA _)
        (fun s h => hpermitted index s batch h hbatch) fun s t hs h =>
          hnext index s t batch hs h hbatch
    refine Safe.bind (R := fun _ => A (index + 1)) ?_ (fun receipt => ?_) fun _ _ _ _ => nofun
    · refine Safe.bind (R := fun _ => A (index + 1)) ?_ (fun rows s _ h => h) fun _ _ _ h => h
      exact query_safe hquiet (fun _ => hA _) (fun s _ h => h.2 rfl) fun _ s h => h.2 rfl
    cases receipt with
    | none => exact fun _ _ _ => nofun
    | some receipt =>
      refine Safe.bind (R := fun _ => A (index + 1)) ?_ (fun _ => ?_) fun _ _ _ _ => nofun
      · exact Safe.require (fun s _ h _ => h) fun s _ h _ => h
      refine Safe.bind (acknowledge_safe hquiet (hA _) on_receipt receipt) (fun _ => ?_)
        fun _ _ _ _ => nofun
      refine Safe.bind (R := fun _ => A (index + 1)) ?_ (fun _ => ?_) fun _ _ _ _ => nofun
      · exact Safe.require (fun s _ h _ => h) fun s _ h _ => h
      refine Safe.weaken (ih (index + 1) (applied + 1) hrest hlt) (fun _ _ h => h)
        fun result s _ h total htotal => ?_
      obtain ⟨htotal, hlast⟩ := h total htotal
      refine ⟨?_, hlast⟩
      rw [htotal, List.length_cons]
      omega

end Calls

/-- When a run may ask for the commit of a batch. -/
def Admitted (batches : List Batch) (run : Run) (start : Database) (op : Request)
    (s : Database) : Prop :=
  Quiet op ∨ (run.plan.batches = batches ∧ start.applied ≠ batches) ∨
    (manifest run.plan.batches ≠ manifest batches ∧ ¬ Claimed batches s)

/-- What a run that returns has reached and reports. -/
structure Complete (batches : List Batch) (start s : Database) (report : Report) : Prop where
  receipts : s.receipts = receipts_of batches batches.length
  applied : s.applied = batches
  planned : report.planned = batches.length
  counted : report.applied + report.already_acknowledged = report.planned
  again : start.applied = batches → report.applied = 0
  manifest : report.manifest_sha256 = manifest_sha256 batches

def Returned (batches : List Batch) (run : Run) (start : Database) (result : Except Failure Report)
    (s : Database) : Prop :=
  ∀ report, result = .ok report → Claimed run.plan.batches s ∧
    (run.plan.batches = batches → Complete batches start s report)

section Runs

variable {p : BatchPlan} {others : Prop} {start s : Database} {count : Nat}

theorem Valid.complete (h : Valid p.batches others s)
    (hheld : receipts_of p.batches p.batches.length <+: s.receipts) :
    Delivered p.batches p.batches.length s := by
  have hclaimed : Claimed p.batches s := by
    obtain ⟨tail, htail⟩ := hheld
    rw [Claimed, ← htail]
    rfl
  obtain ⟨count, hdelivered⟩ := h.delivered hclaimed
  rw [hdelivered.receipts] at hheld
  have hcount := count_le_of_receipts le_rfl hdelivered.count_le hheld
  rwa [le_antisymm hcount hdelivered.count_le]

/-- A database that all batches of the plan were applied to stays so. -/
theorem Valid.full (h : Valid p.batches others start) (happlied : start.applied = p.batches)
    (hclaimed : ∀ row rest, start.receipts = row :: rest → row = manifest p.batches) :
    Delivered p.batches p.batches.length start := by
  obtain ⟨_, hnone⟩ | ⟨⟨row, rest, hrow, _, hne⟩, _⟩ | ⟨count, hdelivered⟩ := h.state
  · exact absurd (happlied.symm.trans hnone) p.ne_nil
  · exact absurd (hclaimed row rest hrow) hne
  · have hcount : count = p.batches.length := by
      have hlength := congrArg List.length (hdelivered.applied.symm.trans happlied)
      rw [List.length_take] at hlength
      have hle := hdelivered.count_le
      omega
    rwa [← hcount]

/-- Whoever owns the database later owned it, or it was still empty. -/
theorem Claimed.earlier (h : Claimed p.batches s) (hgrows : Grows start s) :
    ∀ row rest, start.receipts = row :: rest → row = manifest p.batches := by
  intro row rest hrow
  obtain ⟨⟨tail, htail⟩, _⟩ := hgrows
  rw [Claimed, ← htail, hrow] at h
  exact Option.some.inj h

/-- What a client finds applied, no less than before it started. -/
structure Found (batches : List Batch) (start : Database) (existing : List Receipt) : Prop where
  length_le : existing.length ≤ batches.length
  eq : existing = (batches.take existing.length).map Batch.receipt
  again : start.applied = batches → existing.length = batches.length

theorem Valid.found (h : Valid p.batches others s) (hstart : Valid p.batches others start)
    (hgrows : Grows start s) (hclaimed : Claimed p.batches s) :
    Found p.batches start s.batch_receipts ∧
      receipts_of p.batches s.batch_receipts.length <+: s.receipts := by
  obtain ⟨count, hdelivered⟩ := h.delivered hclaimed
  have hcount := hdelivered.count_le
  have hlength : s.batch_receipts.length = count := by
    rw [hdelivered.batch_receipts, List.length_map, List.length_take]
    omega
  refine ⟨⟨by rwa [hlength], by rw [hlength, hdelivered.batch_receipts], fun happlied => ?_⟩, ?_⟩
  · have hfull := hstart.full happlied (hclaimed.earlier hgrows)
    have hearlier := hgrows.1
    rw [hfull.receipts, hdelivered.receipts] at hearlier
    rw [hlength]
    exact le_antisymm hcount (count_le_of_receipts le_rfl hcount hearlier)
  · rw [hlength, hdelivered.receipts]

variable (run : Run)

/-- A run of the plan applies what remains of it. -/
theorem own_safe (hown : run.plan.batches = p.batches) (hstart : Valid p.batches others start) :
    Safe engine (growth p.batches others) (Admitted p.batches run start)
      (Returned p.batches run start) (ingest run)
      (Grows start) := by
  have hquiet : ∀ op s, Quiet op → Admitted p.batches run start op s := fun op s h => .inl h
  have hgrows : (growth p.batches others).Stable (Grows start) := fun s t hst h => h.trans hst
  have hheld : ∀ index, (growth p.batches others).Stable
      fun s => Grows start s ∧ receipts_of p.batches index <+: s.receipts :=
    fun index s t hst h => ⟨h.1.trans hst, h.2.trans hst.1⟩
  unfold ingest
  rw [hown]
  refine Safe.bind (claim_manifest_safe hquiet hgrows (.inl rfl) run.engine) (fun _ => ?_)
    fun _ _ _ _ => nofun
  refine Safe.bind (R := fun result s => Grows start s ∧ ∀ rows, result = .ok rows →
    receipts_of p.batches rows.length <+: s.receipts ∧ Found p.batches start rows) ?_
    (fun existing => ?_) fun _ _ _ _ => nofun
  · refine query_batches_safe hquiet ?_ (fun s hs h => ⟨h.1, fun rows hrows => ?_⟩) fun _ s h =>
      ⟨h.1, nofun⟩
    · intro answer s t hst h
      refine ⟨h.1.trans hst, fun rows hrows => ?_⟩
      obtain ⟨hrows, hfound⟩ := h.2 rows hrows
      exact ⟨hrows.trans hst.1, hfound⟩
    · obtain rfl := Except.ok.inj hrows
      exact (hs.found hstart h.1 (h.2 rfl)).symm
  refine Safe.weaken
    (S := fun s => (Grows start s ∧ receipts_of p.batches existing.length <+: s.receipts) ∧
      Found p.batches start existing) ?_
    (fun s _ h => ⟨⟨h.1, (h.2 existing rfl).1⟩, (h.2 existing rfl).2⟩) fun _ _ _ h => h
  refine Safe.observed fun hfound => ?_
  have hindex := hfound.length_le
  unfold deliver
  refine Safe.bind (R := fun _ s => Grows start s ∧
    receipts_of p.batches existing.length <+: s.receipts) ?_ (fun _ => ?_)
    fun _ _ _ _ => nofun
  · exact Safe.require (fun s _ h _ => h) fun s _ h _ => h
  refine Safe.bind (R := fun _ s => Grows start s ∧
    receipts_of p.batches existing.length <+: s.receipts) ?_ (fun _ => ?_)
    fun _ _ _ _ => nofun
  · exact Safe.require (fun s _ h _ => h) fun s _ h _ => h
  by_cases hagain : start.applied = p.batches
  · -- nothing remains, so no commit is asked for
    have hlast := hfound.again hagain
    rw [hlast, List.drop_length]
    intro s hs h report hreport
    obtain rfl := Except.ok.inj hreport
    have hfull := hs.complete (hlast ▸ h.2)
    refine ⟨hown ▸ hfull.claimed, fun _ =>
      ⟨hfull.receipts, by simpa using hfull.applied, rfl, Nat.zero_add _, fun _ => rfl, rfl⟩⟩
  · refine Safe.bind
      (deliver_pending_safe hquiet hheld ?_ ?_ ?_ run.engine run.on_receipt run.interrupt_after
        (p.batches.drop existing.length) existing.length 0 rfl hindex) (fun total => ?_)
      fun _ _ _ _ => nofun
    · exact fun index s batch statement _ _ _ => .inr (.inl ⟨hown, hagain⟩)
    · exact fun index s batch h hbatch => .inr ⟨index, hbatch, h.2⟩
    · intro index s t batch hs h hbatch hexecute
      refine ⟨h.1.trans (execute_grows hexecute).1, ?_⟩
      have hclaimed : Claimed p.batches s := by
        obtain ⟨tail, htail⟩ := h.2
        rw [Claimed, ← htail]
        rfl
      obtain ⟨count, hdelivered⟩ := hs.delivered hclaimed
      have hpermitted : Permitted p.batches others s (.commit batch) := .inr ⟨index, hbatch, h.2⟩
      obtain ⟨hnext, hdone⟩ := hdelivered.commit hpermitted hexecute
      have hle : index ≤ count := by
        refine count_le_of_receipts ?_ hdelivered.count_le (hdelivered.receipts ▸ h.2)
        exact (List.getElem?_eq_some_iff.mp hbatch).1.le
      rw [hdone.receipts]
      exact receipts_of_mono (by omega)
    · intro s hs h report hreport
      obtain rfl := Except.ok.inj hreport
      obtain ⟨htotal, hlast⟩ := h total rfl
      have hfull := hs.complete hlast.2
      rw [List.length_drop] at htotal
      refine ⟨hown ▸ hfull.claimed, fun _ =>
        ⟨hfull.receipts, by simpa using hfull.applied, rfl, ?_, fun h => absurd h hagain, rfl⟩⟩
      dsimp only
      omega

/-- A run of another plan stays away from the database of this one. -/
theorem other_safe (hother : manifest run.plan.batches ≠ manifest p.batches) (hothers : others) :
    Safe engine (growth p.batches others) (Admitted p.batches run start)
      (Returned p.batches run start) (ingest run)
      (Grows start) := by
  have hquiet : ∀ op s, Quiet op → Admitted p.batches run start op s := fun op s h => .inl h
  have hgrows : (growth p.batches others).Stable (Grows start) := fun s t hst h => h.trans hst
  have hclaimed : (growth p.batches others).Stable (Claimed run.plan.batches) :=
    fun s t hst h => h.grow hst
  have hnot : ∀ s, Claimed run.plan.batches s → ¬ Claimed p.batches s := by
    intro s h h'
    exact hother (Option.some.inj (h.symm.trans h'))
  have hne : run.plan.batches ≠ p.batches := fun h => hother (congrArg manifest h)
  unfold ingest
  refine Safe.bind (claim_manifest_safe hquiet hgrows (.inr hothers) run.engine) (fun _ => ?_)
    fun _ _ _ _ => nofun
  refine Safe.bind (R := fun _ => Claimed run.plan.batches) ?_ (fun existing => ?_)
    fun _ _ _ _ => nofun
  · exact query_batches_safe hquiet (fun _ => hclaimed) (fun s _ h => h.2 rfl) fun _ s h => h.2 rfl
  unfold deliver
  refine Safe.bind (R := fun result s => Claimed run.plan.batches s ∧
    (result = .ok () → existing.length ≤ run.plan.batches.length)) ?_ (fun _ => ?_)
    fun _ _ _ _ => nofun
  · exact Safe.require (fun s _ h hexisting => ⟨h, fun _ => hexisting.1⟩) fun s _ h _ => ⟨h, nofun⟩
  refine Safe.weaken
    (S := fun s => Claimed run.plan.batches s ∧ existing.length ≤ run.plan.batches.length) ?_
    (fun s _ h => ⟨h.1, h.2 rfl⟩) fun _ _ _ h => h
  refine Safe.observed fun hindex => ?_
  refine Safe.bind (R := fun _ => Claimed run.plan.batches) ?_ (fun _ => ?_) fun _ _ _ _ => nofun
  · exact Safe.require (fun s _ h _ => h) fun s _ h _ => h
  refine Safe.bind (deliver_pending_safe hquiet (A := fun _ => Claimed run.plan.batches)
    (fun _ => hclaimed) ?_ ?_ ?_ run.engine run.on_receipt run.interrupt_after
      (run.plan.batches.drop existing.length) existing.length 0 rfl hindex)
    (fun total => ?_) fun _ _ _ _ => nofun
  · exact fun index s batch statement _ h _ => .inr (.inr ⟨hother, hnot s h⟩)
  · intro index s batch h _
    cases hreceipts : s.receipts with
    | nil =>
      rw [Claimed, hreceipts] at h
      cases h
    | cons row rest =>
      rw [Claimed, hreceipts] at h
      obtain rfl := Option.some.inj h
      exact .inl ⟨⟨_, rest, hreceipts, rfl, hother⟩, hothers⟩
  · exact fun index s t batch _ h _ hexecute => h.grow (execute_grows hexecute).1
  · intro s _ h report _
    obtain ⟨_, hlast⟩ := h total rfl
    exact ⟨hlast, fun heq => absurd heq hne⟩

def Allowed (p : BatchPlan) (others : Prop) (run : Run) : Prop :=
  run.plan.batches = p.batches ∨
    (others ∧ manifest_sha256 run.plan.batches ≠ manifest_sha256 p.batches)

theorem history_sound (others : Prop) (events : List Event)
    (hevents : ∀ thread run, .start thread run ∈ events → Allowed p others run) :
    Program.Crowd.Sound engine (growth p.batches others) (Admitted p.batches) (Returned p.batches)
      (Allowed p others)
      (history events) ∧
    ∀ more, (∀ thread run, .start thread run ∈ more → Allowed p others run) →
      Grows (history events).world (history (events ++ more)).world := by
  have hcode : ∀ run start, Allowed p others run → Valid p.batches others start →
      Safe engine (growth p.batches others) (Admitted p.batches run start)
        (Returned p.batches run start) (ingest run)
        (Grows start) := by
    intro run start hallowed hstart
    obtain hown | ⟨hothers, hother⟩ := hallowed
    · exact own_safe run hown hstart
    · exact other_safe run (fun h => hother (congrArg Receipt.payload_sha256 h)) hothers
  have hempty : Program.Crowd.Sound engine (growth p.batches others) (Admitted p.batches)
    (Returned p.batches)
      (Allowed p others) empty := ⟨⟨nofun, .inl ⟨rfl, rfl⟩⟩, nofun⟩
  have hdrift : ∀ settlement s, Valid p.batches others s →
    Valid p.batches others (engine.drift settlement s) ∧
      Grows s (engine.drift settlement s) := fun settlement s h => h.settle settlement
  obtain ⟨hsound, _⟩ := hempty.history hcode hdrift events hevents
  refine ⟨hsound, fun more hmore => ?_⟩
  have happend : history (events ++ more) = (history events).history engine ingest more :=
    List.foldl_append ..
  rw [happend]
  exact (hsound.history hcode hdrift more hmore).2

end Runs

/-- Batches are delivered exactly once. Runs of a plan and of plans with other manifests
    are interleaved and interrupted in any way on one new database. -/
theorem batches_delivered (p : BatchPlan) (events : List Event)
    (hruns : ∀ thread run, .start thread run ∈ events →
      run.plan.batches = p.batches ∨ manifest_sha256 run.plan.batches ≠ manifest_sha256 p.batches) :
    ((∀ thread run, .start thread run ∈ events → run.plan.batches = p.batches) →
      ∀ row ∈ (history events).world.receipts.head?, row = manifest p.batches) ∧
    ((∀ row ∈ (history events).world.receipts.head?, row = manifest p.batches) →
      ∃ count, count ≤ p.batches.length ∧ (history events).world.applied = p.batches.take count ∧
        (history events).world.batch_receipts = (p.batches.take count).map Batch.receipt) ∧
    (∀ thread run start report,
      (history events).threads thread = some ⟨run, start, .done (.ok report)⟩ →
      run.plan.batches = p.batches →
        report.planned = p.batches.length ∧
        report.applied + report.already_acknowledged = report.planned ∧
          ∀ more, (∀ thread run, .start thread run ∈ more →
              run.plan.batches = p.batches ∨
              manifest_sha256 run.plan.batches ≠ manifest_sha256 p.batches) →
            (history (events ++ more)).world.applied = p.batches) ∧
    (∀ thread run start program, (history events).threads thread = some ⟨run, start, program⟩ →
      run.plan.batches = p.batches → start.applied = p.batches →
        (∀ statement batch next, program ≠ .call (.execute statement (.commit batch)) next) ∧
          ∀ report, program = .done (.ok report) → report.applied = 0) ∧
    ∀ thread run start program, (history events).threads thread = some ⟨run, start, program⟩ →
      manifest_sha256 run.plan.batches ≠ manifest_sha256 p.batches →
        (history events).world.receipts.head? = some (manifest p.batches) →
          (∀ statement batch next, program ≠ .call (.execute statement (.commit batch)) next) ∧
            ∀ report, program ≠ .done (.ok report) := by
  have hallowed : ∀ {runs : List Event}, (∀ thread run, .start thread run ∈ runs →
      run.plan.batches = p.batches ∨ manifest_sha256 run.plan.batches ≠ manifest_sha256 p.batches) →
        ∀ thread run, .start thread run ∈ runs → Allowed p True run :=
    fun h thread run hrun => (h thread run hrun).imp_right fun hother => ⟨trivial, hother⟩
  obtain ⟨hsound, hmore⟩ := history_sound True events (hallowed hruns)
  refine ⟨fun hown row hrow => ?_, fun hhead => ?_, fun thread run start report hthread hown => ?_,
    fun thread run start program hthread hown happlied =>
      ?_, fun thread run start program hthread hother hhead => ?_⟩
  · have hclosed :=
      (history_sound False events fun thread run hrun => .inl (hown thread run hrun)).1.valid
    obtain ⟨hnil, _⟩ | ⟨_, hfalse⟩ | ⟨count, hdelivered⟩ := hclosed.state
    · simp [hnil] at hrow
    · exact hfalse.elim
    · rw [hdelivered.claimed] at hrow
      exact (Option.some.inj hrow).symm
  · obtain ⟨hnil, happlied⟩ | ⟨⟨row, rest, hrow, _, hne⟩, _⟩ | ⟨count, hdelivered⟩ :=
      hsound.valid.state
    · exact ⟨0, Nat.zero_le _, by simpa using happlied, by simp [Database.batch_receipts, hnil]⟩
    · exact absurd (hhead row (by simp [hrow])) hne
    · exact ⟨count, hdelivered.count_le, hdelivered.applied, hdelivered.batch_receipts⟩
  · obtain ⟨_, hcomplete⟩ := hsound.returned hthread report rfl
    have hdone := hcomplete hown
    refine ⟨hdone.planned, hdone.counted, fun more hstarts => ?_⟩
    have hgrown := hmore more (hallowed hstarts)
    obtain ⟨hlater, _⟩ := history_sound (p := p) True (events ++ more) fun thread run hrun =>
      (List.mem_append.mp hrun).elim (hallowed hruns thread run) (hallowed hstarts thread run)
    have hfull := hlater.valid.complete (hdone.receipts ▸ hgrown.1)
    simpa using hfull.applied
  · refine ⟨fun statement batch next hprogram => ?_, fun report hprogram => ?_⟩
    · subst hprogram
      obtain hquiet | ⟨_, hnot⟩ | ⟨hother, _⟩ := hsound.asked hthread
      · exact hquiet statement batch rfl
      · exact hnot happlied
      · exact hother (congrArg manifest hown)
    · subst hprogram
      obtain ⟨_, hcomplete⟩ := hsound.returned hthread report rfl
      exact (hcomplete hown).again happlied
  · have hnot : run.plan.batches ≠ p.batches := fun h => hother (congrArg manifest_sha256 h)
    refine ⟨fun statement batch next hprogram => ?_, fun report hprogram => ?_⟩
    · subst hprogram
      obtain hquiet | ⟨hown, _⟩ | ⟨_, hunclaimed⟩ := hsound.asked hthread
      · exact hquiet statement batch rfl
      · exact hnot hown
      · exact hunclaimed hhead
    · subst hprogram
      obtain ⟨hclaimed, _⟩ := hsound.returned hthread report rfl
      exact hother (congrArg Receipt.payload_sha256 (Option.some.inj (hclaimed.symm.trans hhead)))

/-- Two statements in two batches. -/
def two_batches : BatchPlan :=
  ⟨["SELECT 1;", "SELECT 2;"], 1, ["SELECT 1;", "SELECT 2;"].mapIdx batch_of, by rfl⟩

/-- Two clients deliver the same plan, and the first loses an answer. -/
def rivals : List Event :=
  [.start 0 ⟨"postgresql", two_batches, false, none⟩,
    .start 1 ⟨"postgresql", two_batches, false, none⟩, .call 0 .answered, .call 1 .answered,
      .call 0 .answered, .call 1 .answered, .call 0 .answered, .call 0 .answered,
    .call 0 .unanswered, .start 2 ⟨"postgresql", two_batches, true, none⟩]

theorem rivals_delivered : ∃ count, count ≤ two_batches.batches.length ∧
    (history rivals).world.applied = two_batches.batches.take count ∧
      (history rivals).world.batch_receipts =
        (two_batches.batches.take count).map Batch.receipt := by
  have hown : ∀ thread run, .start thread run ∈ rivals →
      run.plan.batches = two_batches.batches := by
    intro thread run hrun
    simp only [rivals, List.mem_cons, Program.Event.start.injEq, reduceCtorEq, List.not_mem_nil,
      false_or, or_false] at hrun
    obtain ⟨_, rfl⟩ | ⟨_, rfl⟩ | ⟨_, rfl⟩ := hrun <;> rfl
  obtain ⟨hhead, happlied, _⟩ := batches_delivered two_batches rivals fun thread run hrun =>
    .inl (hown thread run hrun)
  exact happlied (hhead hown)

end bench
