import PepeuchCluster.Json.Objects

namespace Json

/-- A field in a dictionary in key order, which holds each key once. -/
def insertField (field : String × Json) : List (String × Json) → List (String × Json)
  | [] => [field]
  | other :: rest =>
    if field.1 < other.1 then field :: other :: rest
    else if field.1 = other.1 then field :: rest
    else other :: insertField field rest

mutual

/-- The value with every dictionary in key order: a dictionary does not depend on the
    order in which a text lists its fields. -/
def ordered : Json → Json
  | .arr items => .arr (orderedItems items)
  | .obj fields => .obj (orderedFields fields)
  | value => value

def orderedItems : List Json → List Json
  | [] => []
  | item :: rest => ordered item :: orderedItems rest

def orderedFields : List (String × Json) → List (String × Json)
  | [] => []
  | (key, value) :: rest => insertField (key, ordered value) (orderedFields rest)

end

section Insertion

variable {field : String × Json} {fields : List (String × Json)}

theorem mem_insertField {other : String × Json} (h : other ∈ insertField field fields) :
    other = field ∨ other ∈ fields := by
  induction fields with
  | nil => exact .inl (List.mem_singleton.mp h)
  | cons head rest ih =>
    unfold insertField at h
    split at h
    · exact List.mem_cons.mp h
    · split at h
      · exact (List.mem_cons.mp h).imp_right (List.mem_cons_of_mem _)
      · rcases List.mem_cons.mp h with rfl | h
        · exact .inr List.mem_cons_self
        · exact (ih h).imp_right (List.mem_cons_of_mem _)

theorem insertField_strict (h : (fields.map Prod.fst).Pairwise (· < ·)) :
    ((insertField field fields).map Prod.fst).Pairwise (· < ·) := by
  induction fields with
  | nil => exact List.pairwise_singleton _ _
  | cons head rest ih =>
    rw [List.map_cons, List.pairwise_cons] at h
    obtain ⟨hhead, hrest⟩ := h
    unfold insertField
    split
    · next hlt =>
      refine List.pairwise_cons.mpr ⟨fun key hkey => ?_, List.pairwise_cons.mpr ⟨hhead, hrest⟩⟩
      rcases List.mem_cons.mp hkey with rfl | hkey
      · exact hlt
      · exact hlt.trans (hhead key hkey)
    · split
      · next heq =>
        refine List.pairwise_cons.mpr ⟨fun key hkey => ?_, hrest⟩
        rw [heq]
        exact hhead key hkey
      · next hnlt hne =>
        refine List.pairwise_cons.mpr ⟨fun key hkey => ?_, ih hrest⟩
        obtain ⟨other, hother, rfl⟩ := List.mem_map.mp hkey
        rcases mem_insertField hother with rfl | hother
        · exact lt_of_le_of_ne (not_lt.mp hnlt) (Ne.symm hne)
        · exact hhead _ (List.mem_map_of_mem hother)

/-- A field before all others is put first. -/
theorem insertField_first (h : ∀ other ∈ fields, field.1 < other.1) :
    insertField field fields = field :: fields := by
  cases fields with
  | nil => rfl
  | cons head rest => exact if_pos (h head List.mem_cons_self)

end Insertion

mutual

theorem ordered_wellFormed : ∀ j : Json, (ordered j).WellFormed
  | .null | .bool _ | .number _ | .str _ => trivial
  | .arr items => orderedItems_wellFormed items
  | .obj fields => orderedFields_wellFormed fields

theorem orderedItems_wellFormed : ∀ items : List Json, WellFormedItems (orderedItems items)
  | [] => trivial
  | item :: rest => ⟨ordered_wellFormed item, orderedItems_wellFormed rest⟩

theorem orderedFields_wellFormed : ∀ fields : List (String × Json),
    ((orderedFields fields).map Prod.fst).Pairwise (· < ·) ∧ WellFormedFields (orderedFields fields)
  | [] => ⟨List.Pairwise.nil, trivial⟩
  | (key, value) :: rest => by
    obtain ⟨hstrict, hvalues⟩ := orderedFields_wellFormed rest
    refine ⟨insertField_strict hstrict, wellFormedFields_iff.mpr fun field hfield => ?_⟩
    rcases mem_insertField hfield with rfl | hfield
    · exact ordered_wellFormed value
    · exact wellFormedFields_iff.mp hvalues field hfield

end

mutual

theorem ordered_eq_self : ∀ j : Json, j.WellFormed → ordered j = j
  | .null, _ | .bool _, _ | .number _, _ | .str _, _ => rfl
  | .arr items, h => congrArg Json.arr (orderedItems_eq_self items h)
  | .obj fields, h => congrArg Json.obj (orderedFields_eq_self fields h.1 h.2)

theorem orderedItems_eq_self : ∀ items : List Json, WellFormedItems items →
    orderedItems items = items
  | [], _ => rfl
  | item :: rest, h =>
    congrArg₂ List.cons (ordered_eq_self item h.1) (orderedItems_eq_self rest h.2)

theorem orderedFields_eq_self :
    ∀ fields : List (String × Json), (fields.map Prod.fst).Pairwise (· < ·) →
    WellFormedFields fields → orderedFields fields = fields
  | [], _, _ => rfl
  | (key, value) :: rest, hstrict, h => by
    obtain ⟨hfirst, hrest⟩ := List.pairwise_cons.mp hstrict
    rw [orderedFields, ordered_eq_self value h.1, orderedFields_eq_self rest hrest h.2]
    exact insertField_first fun other hother => hfirst _ (List.mem_map_of_mem hother)

end

end Json
