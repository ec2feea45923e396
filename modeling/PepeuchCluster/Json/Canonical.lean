import Mathlib.Data.List.Sort
import Mathlib.Data.String.Basic
import PepeuchCluster.Numbers.Literal

/-- A number keeps the distinction between integers and floats, which both the
    canonical text and the decoder respect. -/
inductive Number where
  | int (value : Int)
  | float (value : Binary64)
deriving DecidableEq

def Number.value : Number → ℚ
  | .int z => z
  | .float x => x.value

inductive Json where
  | null
  | bool (value : Bool)
  | number (value : Number)
  | str (value : String)
  | arr (items : List Json)
  | obj (fields : List (String × Json))

namespace Json

/-- Fields in increasing order of their keys. -/
def sortFields {α : Type} (fields : List (String × α)) : List (String × α) :=
  fields.insertionSort fun a b => a.1 ≤ b.1

/-- A dictionary display: the order in which the source writes keys is immaterial. -/
def dict (fields : List (String × Json)) : Json := .obj (sortFields fields)

def lookup (key : String) : Json → Option Json
  | .obj fields => (fields.find? fun field => field.1 == key).map Prod.snd
  | _ => none

def hexDigit (n : Nat) : Char := Char.ofNat (if n < 10 then n + 48 else n + 87)

def escape (c : Char) : List Char :=
  if c = '"' then ['\\', '"']
  else if c = '\\' then ['\\', '\\']
  else if c = '\n' then ['\\', 'n']
  else if c = '\r' then ['\\', 'r']
  else if c = '\t' then ['\\', 't']
  else if c.toNat = 8 then ['\\', 'b']
  else if c.toNat = 12 then ['\\', 'f']
  else if c.toNat < 32 then ['\\', 'u', '0', '0', hexDigit (c.toNat / 16), hexDigit (c.toNat % 16)]
  else [c]

def renderString (s : String) : List Char := '"' :: s.toList.flatMap escape ++ ['"']

def renderSign (negative : Bool) : List Char := if negative then ['-'] else []

def renderFraction (digits : List Char) : List Char := if digits = [] then [] else '.' :: digits

def renderExponent : Option (Bool × List Char) → List Char
  | none => []
  | some (negative, digits) => 'e' :: (if negative then '-' else '+') :: digits

def renderLiteral (literal : Literal) : List Char :=
  renderSign literal.negative ++ literal.whole ++ renderFraction literal.fraction ++
    renderExponent literal.exponent

def renderNumber : Number → List Char
  | .int z => renderSign (decide (z < 0)) ++ Nat.toDigits 10 z.natAbs
  | .float x => renderLiteral x.literal

def joinItems : List (List Char) → List Char
  | [] => []
  | [item] => item
  | item :: rest => item ++ ',' :: joinItems rest

def renderField (field : String × List Char) : List Char := renderString field.1 ++ ':' :: field.2

mutual

/-- The canonical text: sorted keys, no blanks, only the mandatory escapes. -/
def render : Json → List Char
  | .null => ['n', 'u', 'l', 'l']
  | .bool true => ['t', 'r', 'u', 'e']
  | .bool false => ['f', 'a', 'l', 's', 'e']
  | .number n => renderNumber n
  | .str s => renderString s
  | .arr items => '[' :: joinItems (renderItems items) ++ [']']
  | .obj fields => '{' :: joinItems ((sortFields (renderFields fields)).map renderField) ++ ['}']

def renderItems : List Json → List (List Char)
  | [] => []
  | item :: rest => render item :: renderItems rest

def renderFields : List (String × Json) → List (String × List Char)
  | [] => []
  | (key, value) :: rest => (key, render value) :: renderFields rest

end

mutual

/-- Dictionaries list each key once, in order, at every depth. -/
def WellFormed : Json → Prop
  | .arr items => WellFormedItems items
  | .obj fields => (fields.map Prod.fst).Pairwise (· < ·) ∧ WellFormedFields fields
  | _ => True

def WellFormedItems : List Json → Prop
  | [] => True
  | item :: rest => WellFormed item ∧ WellFormedItems rest

def WellFormedFields : List (String × Json) → Prop
  | [] => True
  | (_, value) :: rest => WellFormed value ∧ WellFormedFields rest

end

theorem wellFormedItems_iff {items : List Json} :
    WellFormedItems items ↔ ∀ item ∈ items, WellFormed item := by
  induction items with
  | nil => simp [WellFormedItems]
  | cons item rest ih => simp [WellFormedItems, ih]

theorem wellFormedFields_iff {fields : List (String × Json)} :
    WellFormedFields fields ↔ ∀ field ∈ fields, WellFormed field.2 := by
  induction fields with
  | nil => simp [WellFormedFields]
  | cons field rest ih => simp [WellFormedFields, ih]

theorem sortFields_perm {α : Type} (fields : List (String × α)) :
    (sortFields fields).Perm fields :=
  List.perm_insertionSort _ fields

theorem mem_sortFields {α : Type} {fields : List (String × α)} {field : String × α} :
    field ∈ sortFields fields ↔ field ∈ fields :=
  (sortFields_perm fields).mem_iff

/-- Sorting distinct keys makes them strictly increasing. -/
theorem sortFields_strict {α : Type} {fields : List (String × α)}
    (hkeys : (fields.map Prod.fst).Nodup) :
    ((sortFields fields).map Prod.fst).Pairwise (· < ·) := by
  have hsorted : ((sortFields fields).map Prod.fst).Pairwise (· ≤ ·) := by
    rw [List.pairwise_map]
    exact List.pairwise_insertionSort (fun a b : String × α => a.1 ≤ b.1) fields
  have hnodup : ((sortFields fields).map Prod.fst).Nodup :=
    ((sortFields_perm fields).map Prod.fst).nodup_iff.mpr hkeys
  exact hsorted.imp₂ (fun _ _ hle hne => lt_of_le_of_ne hle hne) hnodup

theorem dict_wellFormed {fields : List (String × Json)} (hkeys : (fields.map Prod.fst).Nodup)
    (hvalues : ∀ field ∈ fields, WellFormed field.2) : (dict fields).WellFormed :=
  ⟨sortFields_strict hkeys, wellFormedFields_iff.mpr fun field h =>
    hvalues field (mem_sortFields.mp h)⟩

theorem arr_wellFormed {items : List Json} (h : ∀ item ∈ items, WellFormed item) :
    (arr items).WellFormed :=
  wellFormedItems_iff.mpr h

theorem renderFields_map_fst (fields : List (String × Json)) :
    (renderFields fields).map Prod.fst = fields.map Prod.fst := by
  induction fields with
  | nil => rfl
  | cons field rest ih => simp [renderFields, ih]

/-- On a well-formed dictionary the sort of the canonical text does nothing. -/
theorem sortFields_renderFields {fields : List (String × Json)}
    (hkeys : (fields.map Prod.fst).Pairwise (· < ·)) :
    sortFields (renderFields fields) = renderFields fields := by
  apply List.Pairwise.insertionSort_eq
  rw [← renderFields_map_fst, List.pairwise_map] at hkeys
  exact hkeys.imp fun h => h.le

end Json
