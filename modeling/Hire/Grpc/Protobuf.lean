import Hire.Core.Foreign
import Mathlib.Data.List.Forall2

/-!
# The validated payload as a protobuf struct

`claims_struct`, `struct_from_map` and `json_to_protobuf` of `hire-grpc/src/service.rs`. The payload
of a token reaches the consumer as a protobuf `Struct`, which has one kind of number, the double. A
number the JSON library has no double for would become its decimal text; but that library has a
double for every number, and rounds an integer to the nearest one.

`Carries` says that a protobuf value carries a JSON value: the same tree, with each integer either
as the double of that very number or as its decimal text. `carries_jsonToProtobuf_iff` says when the
conversion does so: when every integer in the value, at any depth, has at most fifty-three
significant bits.
-/

set_option autoImplicit false
set_option relaxedAutoImplicit false

namespace Hire.Grpc

open Hire.Library Hire.Library.Binary64 Hire.Core

/-- A protobuf `Value`, by its kind. The fields of a struct are listed by key. -/
inductive ProtoValue
  | nullValue (number : ℤ)
  | numberValue (bits : UInt64)
  | stringValue (text : Str)
  | boolValue (value : Bool)
  | structValue (fields : List (Str × ProtoValue))
  | listValue (values : List ProtoValue)
  deriving Repr

section Conversion

variable (formatFinite : UInt64 → Str)

mutual

/-- One JSON value as one protobuf value. -/
def jsonToProtobuf : Json → ProtoValue
  | .null => .nullValue 0
  | .bool b => .boolValue b
  | .number n =>
    match n.asF64 with
    | some f => .numberValue f
    | none => .stringValue (n.display formatFinite)
  | .string s => .stringValue s
  | .array items => .listValue (listFromItems items)
  | .object map => .structValue (structFromMap map)

/-- The items of a JSON array, each as a protobuf value. -/
def listFromItems : List Json → List ProtoValue
  | [] => []
  | item :: items => jsonToProtobuf item :: listFromItems items

/-- The members of a JSON object as the fields of a struct. The keys of an object are distinct, so
collecting them by key keeps every member. -/
def structFromMap : List (Str × Json) → List (Str × ProtoValue)
  | [] => []
  | (name, value) :: map => (name, jsonToProtobuf value) :: structFromMap map

end

/-- The members of a payload as a struct, if it is an object. -/
def claimsStruct : Json → Option (List (Str × ProtoValue))
  | .object map => some (structFromMap formatFinite map)
  | _ => none

theorem listFromItems_eq_map (items : List Json) :
    listFromItems formatFinite items = items.map (jsonToProtobuf formatFinite) := by
  induction items with
  | nil => rfl
  | cons item items ih => rw [listFromItems, ih, List.map_cons]

theorem structFromMap_eq_map (map : List (Str × Json)) :
    structFromMap formatFinite map =
      map.map fun member ↦ (member.1, jsonToProtobuf formatFinite member.2) := by
  induction map with
  | nil => rfl
  | cons member map ih => rw [structFromMap, ih, List.map_cons]

end Conversion

/-! ### What a protobuf value carries -/

/-- An integer occurs in a JSON value, at any depth. -/
inductive HasInteger (z : ℤ) : Json → Prop
  | number {n : JsonNumber} (h : n.toInt = some z) : HasInteger z (.number n)
  | item {items : List Json} {item : Json} (hmem : item ∈ items) (h : HasInteger z item) :
      HasInteger z (.array items)
  | member {map : List (Str × Json)} {member : Str × Json} (hmem : member ∈ map)
      (h : HasInteger z member.2) : HasInteger z (.object map)

/-- A protobuf value carries a JSON value: nothing, booleans, texts and doubles are the same, the
items of an array stand in their order and the members of an object under their keys, and an integer
is the double of that number or its decimal text. -/
inductive Carries : Json → ProtoValue → Prop
  | null : Carries .null (.nullValue 0)
  | bool (b : Bool) : Carries (.bool b) (.boolValue b)
  | exact {n : JsonNumber} {z : ℤ} {bits : UInt64} (hint : n.toInt = some z)
      (hbits : toRat bits = some (z : ℚ)) : Carries (.number n) (.numberValue bits)
  | decimal {n : JsonNumber} {z : ℤ} (hint : n.toInt = some z) :
      Carries (.number n) (.stringValue (JsonNumber.decimal z))
  | double (bits : UInt64) : Carries (.number (.float bits)) (.numberValue bits)
  | string (s : Str) : Carries (.string s) (.stringValue s)
  | array {items : List Json} {values : List ProtoValue} (h : List.Forall₂ Carries items values) :
      Carries (.array items) (.listValue values)
  | object {map : List (Str × Json)} {fields : List (Str × ProtoValue)}
      (hkeys : map.map Prod.fst = fields.map Prod.fst)
      (h : List.Forall₂ Carries (map.map Prod.snd) (fields.map Prod.snd)) :
      Carries (.object map) (.structValue fields)

section Inversion

variable {formatFinite : UInt64 → Str}

/-- The conversion carries a number exactly when it is not an integer that has to be rounded. -/
theorem carries_number_iff (n : JsonNumber) :
    Carries (.number n) (jsonToProtobuf formatFinite (.number n)) ↔
      ∀ z, n.toInt = some z → IsExact z := by
  cases hint : n.toInt with
  | none =>
    cases n with
    | posInt value => cases hint
    | negInt value => cases hint
    | float bits => exact iff_of_true (.double bits) (by simp)
  | some z =>
    have hvalue : jsonToProtobuf formatFinite (.number n) = .numberValue (ofInt z) := by
      rw [jsonToProtobuf, JsonNumber.asF64_of_toInt hint]
    simp only [hvalue, Option.some_inj, forall_eq']
    rw [← toRat_ofInt_eq_some_iff]
    constructor
    · intro h
      cases h with
      | exact hint' hbits =>
        rw [hint] at hint'
        obtain rfl := Option.some.inj hint'
        exact hbits
      | double bits => cases hint
    · exact .exact hint

/-- The conversion carries an array exactly when it carries each item. -/
theorem carries_array_iff (items : List Json) :
    Carries (.array items) (jsonToProtobuf formatFinite (.array items)) ↔
      ∀ item ∈ items, Carries item (jsonToProtobuf formatFinite item) := by
  have hvalues : List.Forall₂ Carries items (listFromItems formatFinite items) ↔
      ∀ item ∈ items, Carries item (jsonToProtobuf formatFinite item) := by
    rw [listFromItems_eq_map, List.forall₂_map_right_iff, List.forall₂_same]
  rw [jsonToProtobuf, ← hvalues]
  constructor
  · intro h
    cases h with
    | array h => exact h
  · exact .array

/-- The conversion carries an object exactly when it carries each member. -/
theorem carries_object_iff (map : List (Str × Json)) :
    Carries (.object map) (jsonToProtobuf formatFinite (.object map)) ↔
      ∀ member ∈ map, Carries member.2 (jsonToProtobuf formatFinite member.2) := by
  have hkeys : map.map Prod.fst = (structFromMap formatFinite map).map Prod.fst := by
    rw [structFromMap_eq_map, List.map_map]
    rfl
  have hvalues : List.Forall₂ Carries (map.map Prod.snd)
      ((structFromMap formatFinite map).map Prod.snd) ↔
      ∀ member ∈ map, Carries member.2 (jsonToProtobuf formatFinite member.2) := by
    rw [structFromMap_eq_map, List.map_map, List.forall₂_map_left_iff,
      List.forall₂_map_right_iff, List.forall₂_same]
    rfl
  rw [jsonToProtobuf, ← hvalues]
  constructor
  · intro h
    cases h with
    | object _ h => exact h
  · exact .object hkeys

end Inversion

/-! ### The integers of a value -/

theorem hasInteger_number_iff {z : ℤ} {n : JsonNumber} :
    HasInteger z (.number n) ↔ n.toInt = some z := by
  constructor
  · intro h
    cases h with
    | number h => exact h
  · exact .number

theorem hasInteger_array_iff {z : ℤ} {items : List Json} :
    HasInteger z (.array items) ↔ ∃ item ∈ items, HasInteger z item := by
  constructor
  · intro h
    cases h with
    | item hmem h => exact ⟨_, hmem, h⟩
  · rintro ⟨item, hmem, h⟩
    exact .item hmem h

theorem hasInteger_object_iff {z : ℤ} {map : List (Str × Json)} :
    HasInteger z (.object map) ↔ ∃ member ∈ map, HasInteger z member.2 := by
  constructor
  · intro h
    cases h with
    | member hmem h => exact ⟨_, hmem, h⟩
  · rintro ⟨member, hmem, h⟩
    exact .member hmem h

/-! ### When the conversion rounds -/

/-- The conversion carries a JSON value exactly when every integer in it, at any depth, has at most
fifty-three significant bits, up to the largest exponent of a double. -/
theorem carries_jsonToProtobuf_iff (formatFinite : UInt64 → Str) (value : Json) :
    Carries value (jsonToProtobuf formatFinite value) ↔
      ∀ z, HasInteger z value → IsExact z := by
  induction value using Json.induction_on_nested with
  | null => exact iff_of_true .null (by rintro z ⟨⟩)
  | bool b => exact iff_of_true (.bool b) (by rintro z ⟨⟩)
  | string s => exact iff_of_true (.string s) (by rintro z ⟨⟩)
  | number n => simp only [carries_number_iff, hasInteger_number_iff]
  | array items ih =>
    rw [carries_array_iff]
    simp only [hasInteger_array_iff]
    constructor
    · rintro h z ⟨item, hmem, hz⟩
      exact (ih item hmem).mp (h item hmem) z hz
    · intro h item hmem
      exact (ih item hmem).mpr fun z hz ↦ h z ⟨item, hmem, hz⟩
  | object map ih =>
    rw [carries_object_iff]
    simp only [hasInteger_object_iff]
    constructor
    · rintro h z ⟨member, hmem, hz⟩
      exact (ih member hmem).mp (h member hmem) z hz
    · intro h member hmem
      exact (ih member hmem).mpr fun z hz ↦ h z ⟨member, hmem, hz⟩

/-- An expiry of `2 ^ 53 + 1` reaches the consumer as the double of `2 ^ 53`. -/
theorem jsonToProtobuf_rounds_expiry :
    let payload := Json.object [(str "exp", .number (.posInt 9007199254740993))]
    claimsStruct (fun _ ↦ []) payload = some [(str "exp", .numberValue (ofInt 9007199254740992))] ∧
      toRat (ofInt 9007199254740992) = some 9007199254740992 ∧
      ¬ ∀ formatFinite value, Carries value (jsonToProtobuf formatFinite value) := by
  have hrounded : ofInt 9007199254740993 = ofInt 9007199254740992 := by decide
  have hexact : IsExact 9007199254740992 := isExact_of_natAbs_le (by decide)
  have hinexact : ¬ IsExact 9007199254740993 := by
    rintro ⟨m, e, hm, -, hvalue⟩
    have hvalue : 9007199254740993 = m * 2 ^ e := hvalue
    cases e with
    | zero => omega
    | succ e =>
      rw [pow_succ, ← mul_assoc] at hvalue
      omega
  refine ⟨?_, (toRat_ofInt_eq_some_iff _).mpr hexact, fun h ↦ ?_⟩
  · rw [← hrounded]
    rfl
  · have hcarries := h (fun _ ↦ []) (.number (.posInt 9007199254740993))
    exact hinexact ((carries_number_iff _).mp hcarries _ rfl)

end Hire.Grpc
