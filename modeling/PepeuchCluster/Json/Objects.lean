import PepeuchCluster.Json.Canonical

namespace Json

mutual

def decideEq : (j k : Json) → Decidable (j = k)
  | .null, .null => .isTrue rfl
  | .bool a, .bool b => decidable_of_iff (a = b) ⟨congrArg _, Json.bool.inj⟩
  | .number a, .number b => decidable_of_iff (a = b) ⟨congrArg _, Json.number.inj⟩
  | .str a, .str b => decidable_of_iff (a = b) ⟨congrArg _, Json.str.inj⟩
  | .arr a, .arr b =>
    have := decideEqItems a b
    decidable_of_iff (a = b) ⟨congrArg _, Json.arr.inj⟩
  | .obj a, .obj b =>
    have := decideEqFields a b
    decidable_of_iff (a = b) ⟨congrArg _, Json.obj.inj⟩
  | .null, .bool _ | .null, .number _ | .null, .str _ | .null, .arr _ | .null, .obj _ =>
    .isFalse nofun
  | .bool _, .null | .bool _, .number _ | .bool _, .str _ | .bool _, .arr _ | .bool _, .obj _ =>
    .isFalse nofun
  | .number _, .null | .number _, .bool _ | .number _, .str _ | .number _,
      .arr _ | .number _, .obj _ =>
    .isFalse nofun
  | .str _, .null | .str _, .bool _ | .str _, .number _ | .str _, .arr _ | .str _, .obj _ =>
    .isFalse nofun
  | .arr _, .null | .arr _, .bool _ | .arr _, .number _ | .arr _, .str _ | .arr _, .obj _ =>
    .isFalse nofun
  | .obj _, .null | .obj _, .bool _ | .obj _, .number _ | .obj _, .str _ | .obj _, .arr _ =>
    .isFalse nofun

def decideEqItems : (items others : List Json) → Decidable (items = others)
  | [], [] => .isTrue rfl
  | [], _ :: _ | _ :: _, [] => .isFalse nofun
  | item :: rest, other :: others =>
    have := decideEq item other
    have := decideEqItems rest others
    decidable_of_iff (item = other ∧ rest = others) List.cons_eq_cons.symm

def decideEqFields : (fields others : List (String × Json)) → Decidable (fields = others)
  | [], [] => .isTrue rfl
  | [], _ :: _ | _ :: _, [] => .isFalse nofun
  | (key, item) :: rest, (name, other) :: others =>
    have := decideEq item other
    have := decideEqFields rest others
    decidable_of_iff ((key = name ∧ item = other) ∧ rest = others)
      (by rw [List.cons_eq_cons, Prod.mk.injEq])

end

instance : DecidableEq Json := decideEq

/-- `data[key]`, or null where there is none. -/
def item (key : String) (j : Json) : Json := (j.lookup key).getD .null

def entries : Json → List (String × Json)
  | .obj fields => fields
  | _ => []

/-- The text of a string, empty for any other value. -/
def text : Json → String
  | .str s => s
  | _ => ""

def fieldKeys : Json → List String
  | .obj fields => fields.map Prod.fst
  | _ => []

/-- `set(data) == names`, of a dictionary. -/
def HasKeys (names : List String) : Json → Prop
  | .obj fields => fields.map Prod.fst ⊆ names ∧ names ⊆ fields.map Prod.fst
  | _ => False

instance (names : List String) (j : Json) : Decidable (HasKeys names j) := by
  cases j <;> unfold HasKeys <;> infer_instance

section Lookup

variable {α : Type} {fields others : List (String × α)} {key : String} {value : α}

theorem find_key_iff (hkeys : (fields.map Prod.fst).Nodup) :
    fields.find? (fun field => field.1 == key) = some (key, value) ↔ (key, value) ∈ fields := by
  constructor
  · exact List.mem_of_find?_eq_some
  · intro hmem
    induction fields with
    | nil => cases hmem
    | cons field rest ih =>
      obtain ⟨hfresh, hrest⟩ := List.nodup_cons.mp hkeys
      rcases List.mem_cons.mp hmem with rfl | hmem
      · simp
      · have hne : field.1 ≠ key :=
            fun heq => hfresh (heq ▸ List.mem_map_of_mem (f := Prod.fst) hmem)
        rw [List.find?_cons_of_neg (by simpa using hne)]
        exact ih hrest hmem

theorem find_key_perm (hkeys : (fields.map Prod.fst).Nodup) (hperm : fields.Perm others) :
    fields.find? (fun field => field.1 == key) = others.find? (fun field => field.1 == key) := by
  have hothers : (others.map Prod.fst).Nodup := (hperm.map Prod.fst).nodup_iff.mp hkeys
  cases hfind : fields.find? (fun field => field.1 == key) with
  | none =>
    refine (List.find?_eq_none.mpr fun field hfield => ?_).symm
    exact List.find?_eq_none.mp hfind field (hperm.mem_iff.mpr hfield)
  | some field =>
    obtain ⟨name, value⟩ := field
    obtain rfl : name = key := by simpa using List.find?_some hfind
    exact ((find_key_iff hothers).mpr (hperm.mem_iff.mp ((find_key_iff hkeys).mp hfind))).symm

end Lookup

variable {fields others : List (String × Json)} {names : List String} {key : String}
  {value j k : Json}

theorem lookup_obj_iff (hkeys : (fields.map Prod.fst).Nodup) :
    (Json.obj fields).lookup key = some value ↔ (key, value) ∈ fields := by
  rw [lookup, Option.map_eq_some_iff, ← find_key_iff hkeys]
  constructor
  · rintro ⟨⟨name, found⟩, hfind, rfl⟩
    obtain rfl : name = key := by simpa using List.find?_some hfind
    exact hfind
  · exact fun hfind => ⟨_, hfind, rfl⟩

/-- A dictionary display finds what it lists. -/
theorem lookup_dict (hkeys : (fields.map Prod.fst).Nodup) :
    (dict fields).lookup key = (fields.find? fun field => field.1 == key).map Prod.snd := by
  have hperm : (sortFields fields).Perm fields := sortFields_perm fields
  rw [dict, lookup, find_key_perm ((hperm.map Prod.fst).nodup_iff.mpr hkeys) hperm]

theorem item_dict (hkeys : (fields.map Prod.fst).Nodup) :
    (dict fields).item key =
      ((fields.find? fun field => field.1 == key).map Prod.snd).getD .null := by
  rw [item, lookup_dict hkeys]

/-- Sorting forgets the order in which distinct keys came. -/
theorem sortFields_congr {α : Type} {fields others : List (String × α)}
    (hkeys : (fields.map Prod.fst).Nodup) (hperm : fields.Perm others) :
    sortFields fields = sortFields others := by
  have hothers : (others.map Prod.fst).Nodup := (hperm.map Prod.fst).nodup_iff.mp hkeys
  refine List.Perm.eq_of_pairwise (fun a b _ _ hab hba => absurd (lt_trans hab hba) (lt_irrefl _))
    (List.pairwise_map.mp (sortFields_strict hkeys))
      (List.pairwise_map.mp (sortFields_strict hothers)) ?_
  exact ((sortFields_perm fields).trans hperm).trans (sortFields_perm others).symm

theorem keys_nodup (h : (Json.obj fields).WellFormed) : (fields.map Prod.fst).Nodup :=
  h.1.imp fun hlt => hlt.ne

theorem WellFormed.lookup (h : j.WellFormed)
    (hvalue : j.lookup key = some value) : value.WellFormed := by
  cases j with
  | obj fields =>
    have hmem := (lookup_obj_iff (keys_nodup h)).mp hvalue
    exact wellFormedFields_iff.mp h.2 _ hmem
  | _ => cases hvalue

theorem WellFormed.item (h : j.WellFormed) (key : String) : (j.item key).WellFormed := by
  unfold Json.item
  cases hvalue : j.lookup key with
  | none => trivial
  | some value => exact h.lookup hvalue

/-- Two dictionaries with the same items are the same. -/
theorem obj_ext (h : (Json.obj fields).WellFormed) (h' : (Json.obj others).WellFormed)
    (hitems : ∀ key, (Json.obj fields).lookup key = (Json.obj others).lookup key) :
    fields = others := by
  have hmem : ∀ field, field ∈ fields ↔ field ∈ others := by
    rintro ⟨key, value⟩
    rw [← lookup_obj_iff (keys_nodup h), ← lookup_obj_iff (keys_nodup h'), hitems key]
  have hnodup : ∀ {fields : List (String × Json)}, (Json.obj fields).WellFormed → fields.Nodup :=
    fun h => List.Nodup.of_map Prod.fst (keys_nodup h)
  refine List.Perm.eq_of_pairwise ?_ (List.pairwise_map.mp h.1) (List.pairwise_map.mp h'.1)
    ((List.perm_ext_iff_of_nodup (hnodup h) (hnodup h')).mpr hmem)
  exact fun a b _ _ hab hba => absurd (lt_trans hab hba) (lt_irrefl _)

theorem HasKeys.obj (h : HasKeys names j) : ∃ fields, j = .obj fields := by
  cases j with
  | obj fields => exact ⟨fields, rfl⟩
  | _ => cases h

theorem hasKeys_fieldKeys (h : HasKeys names j) : HasKeys j.fieldKeys j := by
  obtain ⟨fields, rfl⟩ := h.obj
  exact ⟨List.Subset.refl _, List.Subset.refl _⟩

/-- The keys of a dictionary are those of any other with the same names. -/
theorem HasKeys.congr (h : HasKeys k.fieldKeys j) (h' : HasKeys names k) : HasKeys names j := by
  obtain ⟨fields, rfl⟩ := h.obj
  obtain ⟨others, rfl⟩ := h'.obj
  exact ⟨List.Subset.trans h.1 h'.1, List.Subset.trans h'.2 h.2⟩

/-- A key is found exactly when the dictionary has it. -/
theorem HasKeys.lookup (h : HasKeys names j) (key : String) :
    j.lookup key = if key ∈ names then some (j.item key) else none := by
  obtain ⟨fields, rfl⟩ := h.obj
  obtain ⟨hsub, hsup⟩ := h
  cases hfind : fields.find? (fun field => field.1 == key) with
  | none =>
    have hnot : key ∉ names := fun hmem => by
      obtain ⟨field, hfield, rfl⟩ := List.mem_map.mp (hsup hmem)
      simpa using List.find?_eq_none.mp hfind field hfield
    simp [Json.lookup, hfind, hnot]
  | some field =>
    have hmem : key ∈ names := by
      have hkey : field.1 = key := by simpa using List.find?_some hfind
      exact hsub (hkey ▸ List.mem_map_of_mem (List.mem_of_find?_eq_some hfind))
    simp [Json.lookup, Json.item, hfind, hmem]

/-- A dictionary is determined by its keys and their items. -/
theorem HasKeys.ext (h : HasKeys names j) (h' : HasKeys names k) (hj : j.WellFormed)
    (hk : k.WellFormed) (hitems : ∀ name ∈ names, j.item name = k.item name) : j = k := by
  have hlookup : ∀ key, j.lookup key = k.lookup key := by
    intro key
    rw [h.lookup, h'.lookup]
    by_cases hkey : key ∈ names
    · simp only [if_pos hkey, hitems key hkey]
    · simp only [if_neg hkey]
  obtain ⟨fields, rfl⟩ := h.obj
  obtain ⟨others, rfl⟩ := h'.obj
  rw [obj_ext hj hk hlookup]

theorem hasKeys_dict (names : List String) (hnames : fields.map Prod.fst = names) :
    HasKeys names (dict fields) := by
  have hperm := (sortFields_perm fields).map Prod.fst
  rw [hnames] at hperm
  exact ⟨hperm.subset, hperm.symm.subset⟩

end Json
