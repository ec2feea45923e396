import PepeuchCluster.Effects.Effect
import PepeuchCluster.Json.Equality

namespace Json

mutual

/-- How many lists and dictionaries stand one inside the other. -/
def depth : Json → Nat
  | .arr items => depthItems items + 1
  | .obj fields => depthFields fields + 1
  | _ => 0

def depthItems : List Json → Nat
  | [] => 0
  | item :: rest => max (depth item) (depthItems rest)

def depthFields : List (String × Json) → Nat
  | [] => 0
  | (_, value) :: rest => max (depth value) (depthFields rest)

end

mutual

/-- The walk of an encoder that has room for so many values one inside the other: a
    value that is too deep and an integer that is too long end it where it meets them. -/
def traverse {ε : Type} (deep long : ε) (room : Nat) : Json → Except ε Unit
  | .number (.int z) => if z.natAbs < 10 ^ 4300 then .ok () else .error long
  | .arr items => match room with
    | 0 => .error deep
    | room + 1 => traverseItems deep long room items
  | .obj fields => match room with
    | 0 => .error deep
    | room + 1 => traverseFields deep long room fields
  | _ => .ok ()

def traverseItems {ε : Type} (deep long : ε) (room : Nat) : List Json → Except ε Unit
  | [] => .ok ()
  | item :: rest => do
    traverse deep long room item
    traverseItems deep long room rest

def traverseFields {ε : Type} (deep long : ε) (room : Nat) : List (String × Json) → Except ε Unit
  | [] => .ok ()
  | (_, value) :: rest => do
    traverse deep long room value
    traverseFields deep long room rest

end

section Depth

variable {items : List Json} {fields : List (String × Json)} {j : Json}

theorem depth_le_fields {field : String × Json} (h : field ∈ fields) :
    field.2.depth ≤ depthFields fields := by
  induction fields with
  | nil => cases h
  | cons other rest ih =>
    rw [depthFields]
    obtain rfl | h := List.mem_cons.mp h
    · exact le_max_left _ _
    · exact (ih h).trans (le_max_right _ _)

/-- An item of a dictionary is less deep than the dictionary. -/
theorem depth_item (key : String) : (j.item key).depth ≤ j.depth - 1 := by
  obtain hnull | hmem : j.item key = .null ∨ (key, j.item key) ∈ j.entries := item_mem
  · rw [hnull]
    exact Nat.zero_le _
  · cases j with
    | obj fields =>
      rw [depth, Nat.add_sub_cancel]
      exact depth_le_fields hmem
    | _ => cases hmem

theorem depthFields_le {room : Nat} (h : ∀ field ∈ fields, field.2.depth ≤ room) :
    depthFields fields ≤ room := by
  induction fields with
  | nil => exact Nat.zero_le _
  | cons field rest ih =>
    obtain ⟨hfield, hrest⟩ := List.forall_mem_cons.mp h
    exact max_le hfield (ih hrest)

theorem depthItems_le {room : Nat} (h : ∀ item ∈ items, item.depth ≤ room) :
    depthItems items ≤ room := by
  induction items with
  | nil => exact Nat.zero_le _
  | cons item rest ih =>
    obtain ⟨hitem, hrest⟩ := List.forall_mem_cons.mp h
    exact max_le hitem (ih hrest)

theorem depth_dict {room : Nat} (h : ∀ field ∈ fields, field.2.depth ≤ room) :
    (dict fields).depth ≤ room + 1 := by
  rw [dict, depth]
  exact Nat.succ_le_succ (depthFields_le fun field hfield => h field (mem_sortFields.mp hfield))

/-- A dictionary is one deeper than its items. -/
theorem HasKeys.depth {names : List String} {room : Nat} (h : HasKeys names j) (hj : j.WellFormed)
    (hitems : ∀ name ∈ names, (j.item name).depth ≤ room) : j.depth ≤ room + 1 := by
  obtain ⟨fields, rfl⟩ := h.obj
  rw [Json.depth]
  refine Nat.succ_le_succ (depthFields_le fun field hfield => ?_)
  have hlookup : (Json.obj fields).lookup field.1 = some field.2 :=
    (lookup_obj_iff (keys_nodup hj)).mpr hfield
  have hitem := hitems field.1 (h.1 (List.mem_map_of_mem hfield))
  rwa [item, hlookup] at hitem

end Depth

section Traverse

variable {ε : Type} {deep long : ε}

mutual

theorem traverse_eq_ok : ∀ (j : Json) {room : Nat}, traverse deep long room j = .ok () ↔
    j.Printable ∧ j.depth ≤ room
  | .null, room => by simp [traverse, Printable, depth]
  | .bool _, room => by simp [traverse, Printable, depth]
  | .str _, room => by simp [traverse, Printable, depth]
  | .number (.float _), room => by simp [traverse, Printable, depth]
  | .number (.int z), room => by
    rw [traverse, Printable]
    by_cases hlong : z.natAbs < 10 ^ 4300
    · exact iff_of_true (if_pos hlong) ⟨hlong, Nat.zero_le _⟩
    · rw [if_neg hlong]
      exact iff_of_false nofun fun h => hlong h.1
  | .arr items, room => by
    cases room with
    | zero => simp [traverse, depth]
    | succ room =>
      rw [traverse, Printable, depth, Nat.succ_le_succ_iff]
      exact traverseItems_eq_ok items
  | .obj fields, room => by
    cases room with
    | zero => simp [traverse, depth]
    | succ room =>
      rw [traverse, Printable, depth, Nat.succ_le_succ_iff]
      exact traverseFields_eq_ok fields

theorem traverseItems_eq_ok : ∀ (items : List Json) {room : Nat},
    traverseItems deep long room items = .ok () ↔ PrintableItems items ∧ depthItems items ≤ room
  | [], room => by simp [traverseItems, PrintableItems, depthItems]
  | item :: rest, room => by
    rw [traverseItems, PrintableItems, depthItems, max_le_iff, Except.bind_eq_ok, and_and_and_comm,
      ← traverse_eq_ok item, ← traverseItems_eq_ok rest]
    exact ⟨fun ⟨_, hitem, hrest⟩ => ⟨hitem, hrest⟩, fun ⟨hitem, hrest⟩ => ⟨(), hitem, hrest⟩⟩

theorem traverseFields_eq_ok : ∀ (fields : List (String × Json)) {room : Nat},
    traverseFields deep long room fields = .ok () ↔ PrintableFields fields ∧
      depthFields fields ≤ room
  | [], room => by simp [traverseFields, PrintableFields, depthFields]
  | (_, value) :: rest, room => by
    rw [traverseFields, PrintableFields, depthFields, max_le_iff, Except.bind_eq_ok,
      and_and_and_comm, ← traverse_eq_ok value, ← traverseFields_eq_ok rest]
    exact ⟨fun ⟨_, hvalue, hrest⟩ => ⟨hvalue, hrest⟩, fun ⟨hvalue, hrest⟩ => ⟨(), hvalue, hrest⟩⟩

end

mutual

/-- A walk with enough room ends only at a long integer. -/
theorem traverse_error : ∀ (j : Json) {room : Nat} {error : ε}, j.depth ≤ room →
    traverse deep long room j = .error error → error = long
  | .null => fun _ h => by simp [traverse] at h
  | .bool _ => fun _ h => by simp [traverse] at h
  | .str _ => fun _ h => by simp [traverse] at h
  | .number (.float _) => fun _ h => by simp [traverse] at h
  | .number (.int z) => fun _ h => by
    rw [traverse] at h
    by_cases hlong : z.natAbs < 10 ^ 4300
    · rw [if_pos hlong] at h
      cases h
    · rw [if_neg hlong] at h
      exact (Except.error.inj h).symm
  | .arr items => fun hdepth h => by
    obtain ⟨room, rfl⟩ :=
      Nat.exists_eq_add_of_lt (Nat.lt_of_lt_of_le (Nat.succ_pos (depthItems items)) hdepth)
    rw [Nat.zero_add, depth, Nat.succ_le_succ_iff] at hdepth
    exact traverseItems_error items hdepth (by rwa [Nat.zero_add] at h)
  | .obj fields => fun hdepth h => by
    obtain ⟨room, rfl⟩ :=
      Nat.exists_eq_add_of_lt (Nat.lt_of_lt_of_le (Nat.succ_pos (depthFields fields)) hdepth)
    rw [Nat.zero_add, depth, Nat.succ_le_succ_iff] at hdepth
    exact traverseFields_error fields hdepth (by rwa [Nat.zero_add] at h)

theorem traverseItems_error :
    ∀ (items : List Json) {room : Nat} {error : ε}, depthItems items ≤ room →
    traverseItems deep long room items = .error error → error = long
  | [] => fun _ h => by simp [traverseItems] at h
  | item :: rest => fun hdepth h => by
    rw [depthItems, max_le_iff] at hdepth
    rw [traverseItems] at h
    cases hitem : traverse deep long _ item with
    | error other =>
      rw [hitem] at h
      cases h
      exact traverse_error item hdepth.1 hitem
    | ok _ =>
      rw [hitem] at h
      exact traverseItems_error rest hdepth.2 h

theorem traverseFields_error :
    ∀ (fields : List (String × Json)) {room : Nat} {error : ε}, depthFields fields ≤ room →
    traverseFields deep long room fields = .error error → error = long
  | [] => fun _ h => by simp [traverseFields] at h
  | (_, value) :: rest => fun hdepth h => by
    rw [depthFields, max_le_iff] at hdepth
    rw [traverseFields] at h
    cases hvalue : traverse deep long _ value with
    | error other =>
      rw [hvalue] at h
      cases h
      exact traverse_error value hdepth.1 hvalue
    | ok _ =>
      rw [hvalue] at h
      exact traverseFields_error rest hdepth.2 h

end

end Traverse

end Json
