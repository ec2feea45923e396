import PepeuchCluster.Json.Objects

namespace Json

/-- The value that a boolean or a number has in a comparison. -/
def numeric : Json → Option ℚ
  | .bool value => some (if value then 1 else 0)
  | .number n => some n.value
  | _ => none

mutual

/-- `==` between two values, whose dictionaries are kept in key order. -/
def equal : Json → Json → Bool
  | .null, .null => true
  | .str s, .str t => s == t
  | .arr items, .arr others => equalItems items others
  | .obj fields, .obj others => equalFields fields others
  | a, b => match a.numeric, b.numeric with
    | some x, some y => x == y
    | _, _ => false

def equalItems : List Json → List Json → Bool
  | [], [] => true
  | item :: rest, other :: others => equal item other && equalItems rest others
  | _, _ => false

def equalFields : List (String × Json) → List (String × Json) → Bool
  | [], [] => true
  | (key, item) :: rest, (name, other) :: others =>
    key == name && equal item other && equalFields rest others
  | _, _ => false

end

mutual

theorem equal_refl : ∀ j : Json, equal j j = true
  | .null => by simp [equal]
  | .bool value => by simp [equal, numeric]
  | .number n => by simp [equal, numeric]
  | .str s => by simp [equal]
  | .arr items => by rw [equal]; exact equalItems_refl items
  | .obj fields => by rw [equal]; exact equalFields_refl fields

theorem equalItems_refl : ∀ items : List Json, equalItems items items = true
  | [] => by simp [equalItems]
  | item :: rest => by simp [equalItems, equal_refl item, equalItems_refl rest]

theorem equalFields_refl : ∀ fields : List (String × Json), equalFields fields fields = true
  | [] => by simp [equalFields]
  | (key, item) :: rest => by simp [equalFields, equal_refl item, equalFields_refl rest]

end

/-- Booleans and numbers compare by their value, and equal nothing else. -/
theorem equal_numeric {j k : Json} {x : ℚ} (h : j.numeric = some x) :
    equal j k = true ↔ k.numeric = some x := by
  cases j with
  | bool value =>
    obtain rfl := Option.some.inj h
    cases k <;>
      simp only [equal, numeric, beq_iff_eq, Option.some.injEq, reduceCtorEq, Bool.false_eq_true]
    all_goals exact eq_comm
  | number n =>
    obtain rfl := Option.some.inj h
    cases k <;> simp [equal, numeric, @eq_comm ℚ n.value]
  | _ => simp [numeric] at h

/-- Only a string equals a string, and only when it is the same. -/
theorem equal_str {j : Json} {s : String} : equal j (.str s) = true ↔ j = .str s := by
  cases j <;> simp [equal, numeric]

theorem str_equal {j : Json} {s : String} : equal (.str s) j = true ↔ j = .str s := by
  cases j with
  | str t => simp [equal, @eq_comm _ t]
  | _ => simp [equal, numeric]

theorem null_equal {k : Json} : equal .null k = true ↔ k = .null := by
  cases k <;> simp [equal, numeric]

theorem arr_equal {items : List Json} {k : Json} :
    equal (.arr items) k = true ↔ ∃ others, k = .arr others ∧ equalItems items others = true := by
  cases k <;> simp [equal, numeric]

theorem obj_equal {fields : List (String × Json)} {k : Json} :
    equal (.obj fields) k = true ↔ ∃ others, k = .obj others ∧
      equalFields fields others = true := by
  cases k <;> simp [equal, numeric]

mutual

theorem equal_symm : ∀ {j k : Json}, equal j k = true → equal k j = true
  | .null, _, h => by rw [null_equal.mp h]; exact equal_refl _
  | .bool value, _, h => (equal_numeric ((equal_numeric (j := .bool value) rfl).mp h)).mpr rfl
  | .number n, _, h => (equal_numeric ((equal_numeric (j := .number n) rfl).mp h)).mpr rfl
  | .str s, _, h => by rw [str_equal.mp h]; exact equal_refl _
  | .arr items, _, h => by
    obtain ⟨others, rfl, hitems⟩ := arr_equal.mp h
    exact arr_equal.mpr ⟨items, rfl, equalItems_symm hitems⟩
  | .obj fields, _, h => by
    obtain ⟨others, rfl, hfields⟩ := obj_equal.mp h
    exact obj_equal.mpr ⟨fields, rfl, equalFields_symm hfields⟩

theorem equalItems_symm : ∀ {items others : List Json}, equalItems items others = true →
    equalItems others items = true
  | [], [], _ => by simp [equalItems]
  | [], _ :: _, h => by simp [equalItems] at h
  | _ :: _, [], h => by simp [equalItems] at h
  | item :: rest, other :: others, h => by
    simp only [equalItems, Bool.and_eq_true] at h ⊢
    exact ⟨equal_symm h.1, equalItems_symm h.2⟩

theorem equalFields_symm :
    ∀ {fields others : List (String × Json)}, equalFields fields others = true →
    equalFields others fields = true
  | [], [], _ => by simp [equalFields]
  | [], _ :: _, h => by simp [equalFields] at h
  | _ :: _, [], h => by simp [equalFields] at h
  | (key, item) :: rest, (name, other) :: others, h => by
    simp only [equalFields, Bool.and_eq_true, beq_iff_eq] at h ⊢
    exact ⟨⟨h.1.1.symm, equal_symm h.1.2⟩, equalFields_symm h.2⟩

end

mutual

theorem equal_trans : ∀ {i j k : Json}, equal i j = true → equal j k = true → equal i k = true
  | .null, _, _, h, h' => by rwa [null_equal.mp h] at h'
  | .bool value, _, _, h, h' =>
    (equal_numeric rfl).mpr ((equal_numeric ((equal_numeric (j := .bool value) rfl).mp h)).mp h')
  | .number n, _, _, h, h' =>
    (equal_numeric rfl).mpr ((equal_numeric ((equal_numeric (j := .number n) rfl).mp h)).mp h')
  | .str s, _, _, h, h' => by rwa [str_equal.mp h] at h'
  | .arr items, _, _, h, h' => by
    obtain ⟨others, rfl, hitems⟩ := arr_equal.mp h
    obtain ⟨last, rfl, hothers⟩ := arr_equal.mp h'
    exact arr_equal.mpr ⟨last, rfl, equalItems_trans hitems hothers⟩
  | .obj fields, _, _, h, h' => by
    obtain ⟨others, rfl, hfields⟩ := obj_equal.mp h
    obtain ⟨last, rfl, hothers⟩ := obj_equal.mp h'
    exact obj_equal.mpr ⟨last, rfl, equalFields_trans hfields hothers⟩

theorem equalItems_trans : ∀ {items others last : List Json}, equalItems items others = true →
    equalItems others last = true → equalItems items last = true
  | [], [], _, _, h' => h'
  | [], _ :: _, _, h, _ => by simp [equalItems] at h
  | _ :: _, [], _, h, _ => by simp [equalItems] at h
  | _ :: _, _ :: _, [], _, h' => by simp [equalItems] at h'
  | _ :: _, _ :: _, _ :: _, h, h' => by
    simp only [equalItems, Bool.and_eq_true] at h h' ⊢
    exact ⟨equal_trans h.1 h'.1, equalItems_trans h.2 h'.2⟩

theorem equalFields_trans :
    ∀ {fields others last : List (String × Json)}, equalFields fields others = true →
    equalFields others last = true → equalFields fields last = true
  | [], [], _, _, h' => h'
  | [], _ :: _, _, h, _ => by simp [equalFields] at h
  | _ :: _, [], _, h, _ => by simp [equalFields] at h
  | _ :: _, _ :: _, [], _, h' => by simp [equalFields] at h'
  | (_, _) :: _, (_, _) :: _, (_, _) :: _, h, h' => by
    simp only [equalFields, Bool.and_eq_true, beq_iff_eq] at h h' ⊢
    exact ⟨⟨h.1.1.trans h'.1.1, equal_trans h.1.2 h'.1.2⟩, equalFields_trans h.2 h'.2⟩

end

theorem equalFields_lookup {fields others : List (String × Json)}
    (h : equalFields fields others = true) (key : String) :
    equal ((obj fields).item key) ((obj others).item key) = true := by
  induction fields generalizing others with
  | nil =>
    cases others with
    | nil => exact equal_refl _
    | cons _ _ => simp [equalFields] at h
  | cons field rest ih =>
    obtain ⟨name, value⟩ := field
    cases others with
    | nil => simp [equalFields] at h
    | cons other others =>
      obtain ⟨name', value'⟩ := other
      simp only [equalFields, Bool.and_eq_true, beq_iff_eq] at h
      obtain ⟨⟨rfl, hvalue⟩, hrest⟩ := h
      by_cases hkey : name = key
      · simpa [item, lookup, hkey] using hvalue
      · simpa [item, lookup, hkey] using ih hrest

/-- Equal values have equal items. -/
theorem equal_item {j k : Json} (h : equal j k = true) (key : String) :
    equal (j.item key) (k.item key) = true := by
  cases j with
  | obj fields =>
    cases k with
    | obj others =>
      rw [equal] at h
      exact equalFields_lookup h key
    | _ => simp [equal, numeric] at h
  | _ =>
    cases k with
    | obj others => simp [equal, numeric] at h
    | _ => exact equal_refl .null

theorem equalItems_iff {items others : List Json} :
    equalItems items others = true ↔
      List.Forall₂ (fun item other => equal item other = true) items others := by
  induction items generalizing others with
  | nil => cases others <;> simp [equalItems]
  | cons item rest ih => cases others <;> simp [equalItems, ih]

/-- Only a list of texts equals a list of texts, and only when it is the same. -/
theorem equal_texts {j : Json} {texts : List String}
    (h : equal j (.arr (texts.map Json.str)) = true) :
    j = .arr (texts.map Json.str) := by
  cases j with
  | arr items =>
    rw [equal, equalItems_iff, List.forall₂_map_right_iff] at h
    refine congrArg Json.arr ?_
    induction h with
    | nil => rfl
    | cons hitem _ ih => rw [List.map_cons, equal_str.mp hitem, ih]
  | _ => simp [equal, numeric] at h

mutual

/-- No boolean and no float: such values compare equal only to themselves. -/
def Discrete : Json → Prop
  | .bool _ => False
  | .number (.float _) => False
  | .arr items => DiscreteItems items
  | .obj fields => DiscreteFields fields
  | _ => True

def DiscreteItems : List Json → Prop
  | [] => True
  | item :: rest => Discrete item ∧ DiscreteItems rest

def DiscreteFields : List (String × Json) → Prop
  | [] => True
  | (_, value) :: rest => Discrete value ∧ DiscreteFields rest

end

theorem discreteItems_iff {items : List Json} : DiscreteItems items ↔
    ∀ item ∈ items, Discrete item := by
  induction items with
  | nil => simp [DiscreteItems]
  | cons item rest ih => simp [DiscreteItems, ih]

theorem discreteFields_iff {fields : List (String × Json)} :
    DiscreteFields fields ↔ ∀ field ∈ fields, Discrete field.2 := by
  induction fields with
  | nil => simp [DiscreteFields]
  | cons field rest ih => simp [DiscreteFields, ih]

mutual

theorem eq_of_equal : ∀ (j k : Json), Discrete j → Discrete k → equal j k = true → j = k
  | .null, k, _, _, h => by
    cases k with
    | null => rfl
    | _ => simp [equal, numeric] at h
  | .bool _, _, hj, _, _ => hj.elim
  | .number (.float _), _, hj, _, _ => hj.elim
  | .str s, k, _, _, h => (str_equal.mp h).symm
  | .number (.int z), k, _, hk, h => by
    cases k with
    | number n =>
      cases n with
      | int w =>
        have hvalue : (z : ℚ) = w := by simpa [equal, numeric, Number.value] using h
        rw [Int.cast_injective hvalue]
      | float x => exact hk.elim
    | bool value => exact hk.elim
    | _ => simp [equal, numeric] at h
  | .arr items, k, hj, hk, h => by
    cases k with
    | arr others =>
      rw [equal] at h
      rw [eq_of_equalItems items others hj hk h]
    | _ => simp [equal, numeric] at h
  | .obj fields, k, hj, hk, h => by
    cases k with
    | obj others =>
      rw [equal] at h
      rw [eq_of_equalFields fields others hj hk h]
    | _ => simp [equal, numeric] at h

theorem eq_of_equalItems : ∀ (items others : List Json), DiscreteItems items →
    DiscreteItems others → equalItems items others = true → items = others
  | [], [], _, _, _ => rfl
  | [], _ :: _, _, _, h => by simp [equalItems] at h
  | _ :: _, [], _, _, h => by simp [equalItems] at h
  | item :: rest, other :: others, hj, hk, h => by
    simp only [equalItems, Bool.and_eq_true] at h
    rw [eq_of_equal item other hj.1 hk.1 h.1, eq_of_equalItems rest others hj.2 hk.2 h.2]

theorem eq_of_equalFields : ∀ (fields others : List (String × Json)), DiscreteFields fields →
    DiscreteFields others → equalFields fields others = true → fields = others
  | [], [], _, _, _ => rfl
  | [], _ :: _, _, _, h => by simp [equalFields] at h
  | _ :: _, [], _, _, h => by simp [equalFields] at h
  | (key, item) :: rest, (name, other) :: others, hj, hk, h => by
    simp only [equalFields, Bool.and_eq_true, beq_iff_eq] at h
    rw [h.1.1, eq_of_equal item other hj.1 hk.1 h.1.2, eq_of_equalFields rest others hj.2 hk.2 h.2]

end

/-- A dictionary with discrete items is discrete. -/
theorem HasKeys.discrete {names : List String} {j : Json} (h : HasKeys names j) (hj : j.WellFormed)
    (hitems : ∀ name ∈ names, Discrete (j.item name)) : Discrete j := by
  obtain ⟨fields, rfl⟩ := h.obj
  refine discreteFields_iff.mpr fun field hfield => ?_
  have hlookup := (lookup_obj_iff (keys_nodup hj)).mpr hfield
  have hitem := hitems field.1 (h.1 (List.mem_map_of_mem hfield))
  rwa [item, hlookup] at hitem

mutual

/-- No integer is longer than the interpreter converts to text. -/
def Printable : Json → Prop
  | .number (.int z) => z.natAbs < 10 ^ 4300
  | .arr items => PrintableItems items
  | .obj fields => PrintableFields fields
  | _ => True

def PrintableItems : List Json → Prop
  | [] => True
  | item :: rest => Printable item ∧ PrintableItems rest

def PrintableFields : List (String × Json) → Prop
  | [] => True
  | (_, value) :: rest => Printable value ∧ PrintableFields rest

end

mutual

def printableDecidable : (j : Json) → Decidable j.Printable
  | .number (.int z) => inferInstanceAs (Decidable (z.natAbs < 10 ^ 4300))
  | .number (.float _) => .isTrue trivial
  | .null => .isTrue trivial
  | .bool _ => .isTrue trivial
  | .str _ => .isTrue trivial
  | .arr items => printableItemsDecidable items
  | .obj fields => printableFieldsDecidable fields

def printableItemsDecidable : (items : List Json) → Decidable (PrintableItems items)
  | [] => .isTrue trivial
  | item :: rest =>
    have := printableDecidable item
    have := printableItemsDecidable rest
    inferInstanceAs (Decidable (_ ∧ _))

def printableFieldsDecidable : (fields : List (String × Json)) → Decidable (PrintableFields fields)
  | [] => .isTrue trivial
  | (_, value) :: rest =>
    have := printableDecidable value
    have := printableFieldsDecidable rest
    inferInstanceAs (Decidable (_ ∧ _))

end

instance (j : Json) : Decidable j.Printable := printableDecidable j

mutual

/-- No key, at any depth, is in the set. -/
def Spares (refused : String → Bool) : Json → Bool
  | .arr items => sparesItems refused items
  | .obj fields => sparesFields refused fields
  | _ => true

def sparesItems (refused : String → Bool) : List Json → Bool
  | [] => true
  | item :: rest => Spares refused item && sparesItems refused rest

def sparesFields (refused : String → Bool) : List (String × Json) → Bool
  | [] => true
  | (key, value) :: rest => !refused key && Spares refused value && sparesFields refused rest

end

section Parts

variable {refused : String → Bool} {items : List Json} {fields : List (String × Json)} {j : Json}

theorem sparesItems_iff : sparesItems refused items = true ↔
    ∀ item ∈ items, item.Spares refused = true := by
  induction items with
  | nil => simp [sparesItems]
  | cons item rest ih => simp [sparesItems, ih]

theorem sparesFields_iff : sparesFields refused fields = true ↔
    ∀ field ∈ fields, refused field.1 = false ∧ field.2.Spares refused = true := by
  induction fields with
  | nil => simp [sparesFields]
  | cons field rest ih => simp [sparesFields, ih]

theorem printableItems_iff : PrintableItems items ↔ ∀ item ∈ items, item.Printable := by
  induction items with
  | nil => simp [PrintableItems]
  | cons item rest ih => simp [PrintableItems, ih]

theorem printableFields_iff : PrintableFields fields ↔ ∀ field ∈ fields, field.2.Printable := by
  induction fields with
  | nil => simp [PrintableFields]
  | cons field rest ih => simp [PrintableFields, ih]

theorem item_mem {key : String} : j.item key = .null ∨ (key, j.item key) ∈ j.entries := by
  cases j with
  | obj fields =>
    cases hfind : fields.find? fun field => field.1 == key with
    | none => exact .inl (by simp [item, lookup, hfind])
    | some field =>
      obtain ⟨name, value⟩ := field
      obtain rfl : name = key := by simpa using List.find?_some hfind
      refine .inr ?_
      simpa [item, lookup, hfind, entries] using List.mem_of_find?_eq_some hfind
  | _ => exact .inl rfl

end Parts

end Json
