import Mathlib.Data.List.Nodup
import OpTrace.Json.Basic

/-!
# The values of documents

A document keeps the order of its fields, which means nothing to its reader. Its value has objects
that are known by their fields alone, so documents that only differ in the order of fields have one
value. Where an object has two fields of one name, readers disagree on which of them counts; a
document is `Distinct` if this happens nowhere in it.

A written form is `Readable` if the documents that it writes are distinct and what was written can
be read from their values. Two things then never have documents of one value.
-/

namespace OpTrace

namespace Json

/-- What a document says, whatever the order of its fields. -/
inductive Value where
  | null
  | bool (b : Bool)
  | int (n : Int)
  | real (x : Binary64)
  | str (s : String)
  | arr (items : List Value)
  | obj (fields : String → Option Value)

mutual

def value : Json → Value
  | null => .null
  | bool b => .bool b
  | int n => .int n
  | real x => .real x
  | str s => .str s
  | arr items => .arr (itemValues items)
  | obj fields => .obj (fieldValue fields)

def itemValues : List Json → List Value
  | [] => []
  | item :: items => item.value :: itemValues items

/-- The value of the field of a name. -/
def fieldValue : List (String × Json) → String → Option Value
  | [], _ => none
  | (name, json) :: fields, key => if key = name then some json.value else fieldValue fields key

end

mutual

/-- No object has two fields of one name. -/
def Distinct : Json → Prop
  | arr items => DistinctItems items
  | obj fields => (fields.map Prod.fst).Nodup ∧ DistinctFields fields
  | _ => True

def DistinctItems : List Json → Prop
  | [] => True
  | item :: items => item.Distinct ∧ DistinctItems items

def DistinctFields : List (String × Json) → Prop
  | [] => True
  | (_, json) :: fields => json.Distinct ∧ DistinctFields fields

end

theorem itemValues_eq (items : List Json) : itemValues items = items.map value := by
  induction items with
  | nil => rfl
  | cons item items ih => rw [itemValues, ih, List.map_cons]

theorem fieldValue_eq (fields : List (String × Json)) (name : String) :
    fieldValue fields name = (fields.lookup name).map value := by
  induction fields with
  | nil => rfl
  | cons field fields ih =>
    obtain ⟨key, json⟩ := field
    by_cases h : name = key
    · simp [fieldValue, h]
    · simp [fieldValue, List.lookup_cons, beq_false_of_ne h, h, ih]

theorem distinctItems_iff {items : List Json} :
    DistinctItems items ↔ ∀ item ∈ items, item.Distinct := by
  induction items with
  | nil => simp [DistinctItems]
  | cons item items ih => simp [DistinctItems, ih]

theorem distinctFields_iff {fields : List (String × Json)} :
    DistinctFields fields ↔ ∀ field ∈ fields, field.2.Distinct := by
  induction fields with
  | nil => simp [DistinctFields]
  | cons field fields ih => simp [DistinctFields, ih]

@[simp] theorem value_null : null.value = .null := rfl

@[simp] theorem value_int (n : Int) : (int n).value = .int n := rfl

@[simp] theorem value_str (s : String) : (str s).value = .str s := rfl

@[simp] theorem value_arr (items : List Json) : (arr items).value = .arr (items.map value) := by
  rw [value, itemValues_eq]

@[simp] theorem distinct_null : null.Distinct := trivial

@[simp] theorem distinct_int (n : Int) : (int n).Distinct := trivial

@[simp] theorem distinct_real (x : Binary64) : (real x).Distinct := trivial

@[simp] theorem distinct_str (s : String) : (str s).Distinct := trivial

@[simp] theorem distinct_arr {items : List Json} :
    (arr items).Distinct ↔ ∀ item ∈ items, item.Distinct :=
  distinctItems_iff

@[simp] theorem distinct_obj {fields : List (String × Json)} :
    (obj fields).Distinct ↔
      (fields.map Prod.fst).Nodup ∧ ∀ field ∈ fields, field.2.Distinct := by
  rw [Distinct, distinctFields_iff]

namespace Value

def field? (name : String) : Value → Option Value
  | obj fields => fields name
  | _ => none

def int? : Value → Option Int
  | int n => some n
  | _ => none

def nat? : Value → Option Nat
  | int (.ofNat n) => some n
  | _ => none

def text? : Value → Option String
  | str s => some s
  | _ => none

def list? {α : Type} (read : Value → Option α) : Value → Option (List α)
  | arr items => items.mapM read
  | _ => none

def nullable? {α : Type} (read : Value → Option α) : Value → Option (Option α)
  | null => some none
  | value => (read value).map some

def required? {α : Type} (name : String) (read : Value → Option α) (value : Value) : Option α :=
  (value.field? name).bind read

def optional? {α : Type} (name : String) (read : Value → Option α) (value : Value) :
    Option (Option α) :=
  match value.field? name with
  | none => some none
  | some field => (read field).map some

@[simp] theorem int?_int (n : Int) : (int n).int? = some n := rfl

@[simp] theorem nat?_natCast (n : Nat) : (int n).nat? = some n := rfl

@[simp] theorem text?_str (s : String) : (str s).text? = some s := rfl

end Value

/-- The field of a value is that of the document. -/
theorem field?_obj (name : String) (fields : List (String × Json)) :
    (obj fields).value.field? name = (fields.lookup name).map value :=
  fieldValue_eq fields name

@[simp] theorem required?_obj {α : Type} (name : String) (read : Value → Option α)
    (fields : List (String × Json)) :
    (obj fields).value.required? name read =
      (fields.lookup name).bind fun json ↦ read json.value := by
  rw [Value.required?, field?_obj, Option.bind_map]
  rfl

@[simp] theorem optional?_obj {α : Type} (name : String) (read : Value → Option α)
    (fields : List (String × Json)) :
    (obj fields).value.optional? name read =
      match fields.lookup name with
      | none => some none
      | some json => (read json.value).map some := by
  rw [Value.optional?, field?_obj]
  cases fields.lookup name <;> rfl

/-- What is written can be read from its value, and no object has two fields of one name. -/
structure Readable {α : Type} (write : α → Json) (read : Value → Option α) : Prop where
  distinct : ∀ a, (write a).Distinct
  read_write : ∀ a, read (write a).value = some a

theorem readable_nat : Readable (fun n : Nat ↦ .int n) Value.nat? :=
  ⟨fun n ↦ distinct_int n, fun _ ↦ rfl⟩

theorem readable_str : Readable .str Value.text? := ⟨distinct_str, fun _ ↦ rfl⟩

namespace Readable

variable {α : Type} {write : α → Json} {read : Value → Option α}

/-- Different things have documents of different values. -/
theorem value_inj (h : Readable write read) {a b : α} :
    (write a).value = (write b).value ↔ a = b := by
  refine ⟨fun heq ↦ ?_, fun heq ↦ by rw [heq]⟩
  have hread := h.read_write a
  rw [heq, h.read_write b] at hread
  exact (Option.some_inj.mp hread).symm

/-- A list can be read if its items can be read. -/
theorem list (h : Readable write read) : Readable (Json.list write) (Value.list? read) where
  distinct items := by
    simp only [Json.list, distinct_arr, List.forall_mem_map]
    exact fun item _ ↦ h.distinct item
  read_write items := by
    simp only [Json.list, value_arr, Value.list?, List.mapM_map]
    induction items with
    | nil => rfl
    | cons item items ih => simp [h.read_write, ih]

end Readable

end Json

end OpTrace
