import Mathlib.Data.List.Infix
import SchemaTree.Field.Constructors
import SchemaTree.Proofs.DocumentType
import SchemaTree.Proofs.Path

/-!
What document types inherit.  The defaults of a type begin with those of every type that it derives
from, in the same order; each is a copy of the field that was given for its name nearest to the
type.
-/

namespace SchemaTree.DocumentType

/-- Types that are built one over the other, with the fields that were given for each: those of the
type itself, then those of its parent, and so on. -/
inductive BuiltFrom : DocumentType → List (List Field) → Prop
  | root {name : String} {own : List Field} {type : DocumentType}
      (built : build name none own = .ok type) : BuiltFrom type [own]
  | derived {name : String} {own : List Field} {parent type : DocumentType}
      {given : List (List Field)} (inherits : BuiltFrom parent given)
      (built : build name (some parent) own = .ok type) : BuiltFrom type (own :: given)

/-- The field of a name in the first of several lists that has one. -/
def nearest? (given : List (List Field)) (name : String) : Option Field :=
  given.findSome? fun own => own.find? fun field => field.name = name

theorem nearest?_cons (own : List Field) (given : List (List Field)) (name : String) :
    nearest? (own :: given) name =
      (own.find? fun field => field.name = name).or (nearest? given name) := by
  rw [nearest?, List.findSome?_cons]
  cases own.find? fun field => field.name = name <;> rfl

variable {name : String} {parent : Option DocumentType} {own : List Field} {type : DocumentType}

/-! ## One type -/

/-- What a type is given has valid names, no two of them the same. -/
theorem names_of_build (built : build name parent own = .ok type) :
    (∀ field ∈ own, isFieldName field.name = true) ∧ (own.map Field.name).Nodup := by
  obtain ⟨fields, isAdded, _⟩ := exists_addDefaults_of_build built
  obtain ⟨areNames, distinct, _⟩ := names_of_addDefaults isAdded
  exact ⟨areNames, distinct⟩

/-- A type has the field that it is given for a name, or else the one that it takes over. -/
theorem lookup_of_build (built : build name parent own = .ok type) (key : String) :
    Mapping.lookup type.fields key =
      ((own.find? fun field => field.name = key).map Field.copy).or
        (Mapping.lookup (inheritedFields parent) key) := by
  have distinct : (Mapping.keys (Field.copies own)).Nodup := by
    rw [Field.keys_copies]
    exact (names_of_build built).2
  rw [build_eq_ok built, Mapping.lookup_extend, Mapping.lookup_reverse distinct,
    Field.lookup_copies_eq_find?]

/-- What is taken over comes first. -/
theorem keys_prefix_of_build (built : build name parent own = .ok type) :
    Mapping.keys (inheritedFields parent) <+: Mapping.keys type.fields := by
  rw [build_eq_ok built, Mapping.keys_extend]
  exact List.prefix_append _ _

theorem isFieldName_of_build (built : build name parent own = .ok type)
    (areNames : ∀ key ∈ Mapping.keys (inheritedFields parent), isFieldName key = true) :
    ∀ key ∈ Mapping.keys type.fields, isFieldName key = true := by
  intro key isKey
  rw [build_eq_ok built, Mapping.mem_keys_extend, Field.keys_copies, List.mem_map] at isKey
  rcases isKey with isInherited | ⟨field, isGiven, rfl⟩
  · exact areNames key isInherited
  · exact (names_of_build built).1 field isGiven

theorem isSubclassOf_of_mem_ancestors {ancestor : DocumentType}
    (isAncestor : ancestor ∈ type.ancestors) : type.isSubclassOf ancestor = true :=
  (isSubclassOf_iff type ancestor).mpr ⟨ancestor, isAncestor, rfl⟩

/-! ## A type and all that it derives from -/

namespace BuiltFrom

variable {given : List (List Field)}

theorem isBuilt (built : type.BuiltFrom given) : type.Built := by
  induction built with
  | root built => exact .build built nofun
  | derived _ built inductionHypothesis =>
      refine .build built ?_
      rintro outer ⟨⟩
      exact inductionHypothesis

theorem keys_prefix (built : type.BuiltFrom given) {ancestor : DocumentType}
    (isAncestor : ancestor ∈ type.ancestors) :
    Mapping.keys ancestor.fields <+: Mapping.keys type.fields := by
  induction built with
  | root built =>
      rw [build_eq_ok built] at isAncestor ⊢
      obtain rfl := List.mem_singleton.mp isAncestor
      exact List.prefix_refl _
  | derived _ built inductionHypothesis =>
      have isPrefix := keys_prefix_of_build built
      rw [build_eq_ok built] at isAncestor isPrefix ⊢
      rcases List.mem_cons.mp isAncestor with rfl | isOuter
      · exact List.prefix_refl _
      · exact (inductionHypothesis isOuter).trans isPrefix

theorem isFieldName_of_mem_keys (built : type.BuiltFrom given) :
    ∀ key ∈ Mapping.keys type.fields, isFieldName key = true := by
  induction built with
  | root built => exact isFieldName_of_build built nofun
  | derived _ built inductionHypothesis => exact isFieldName_of_build built inductionHypothesis

theorem lookup_eq (built : type.BuiltFrom given) (key : String) :
    Mapping.lookup type.fields key = (nearest? given key).map Field.copy := by
  induction built with
  | root built =>
      rw [lookup_of_build built, nearest?_cons, Option.map_or]
      rfl
  | derived _ built inductionHypothesis =>
      rw [lookup_of_build built, nearest?_cons, Option.map_or, ← inductionHypothesis]
      rfl

/-- The names of the defaults of a type that was built, over types that were built, begin with those
of every ancestor, of which it is a subclass; they are distinct and valid; and each default is a
detached copy of the field that was given for its name nearest to the type. -/
theorem defaults_are_inherited (built : type.BuiltFrom given) :
    (∀ ancestor ∈ type.ancestors,
      Mapping.keys ancestor.fields <+: Mapping.keys type.fields ∧
        type.isSubclassOf ancestor = true) ∧
      (Mapping.keys type.fields).Nodup ∧
      (∀ key ∈ Mapping.keys type.fields, isFieldName key = true) ∧
      ∀ key, Mapping.lookup type.fields key = (nearest? given key).map Field.copy :=
  ⟨fun _ isAncestor => ⟨built.keys_prefix isAncestor, isSubclassOf_of_mem_ancestors isAncestor⟩,
    built.isBuilt.consistent.distinct, built.isFieldName_of_mem_keys, built.lookup_eq⟩

end BuiltFrom

/-! ## A taxi -/

def vehicle : DocumentType :=
  ⟨"Vehicle", none, [("plate", .string "plate"), ("wheels", .int "wheels")]⟩

/-- A car is given its wheels again. -/
def car : DocumentType :=
  ⟨"Car", some vehicle, [("plate", .string "plate"), ("wheels", .float "wheels")]⟩

/-- A taxi is given a plate that is required, after a meter. -/
def taxi : DocumentType :=
  ⟨"Taxi", some car, [("plate", (Field.string "plate").setRequired true),
    ("wheels", .float "wheels"), ("meter", .int "meter")]⟩

/-- The wheels of a car, attached when they are given. -/
def carWheels : Field :=
  (Field.float "wheels").bind ⟨List.replicate 16 4, rfl⟩ "car.wheels"

/-- The fields that a taxi is built from. -/
def taxiParts : List (List Field) :=
  [[.int "meter", (Field.string "plate").setRequired true], [carWheels],
    [.string "plate", .int "wheels"]]

theorem defaults_are_inherited_taxi :
    taxi.BuiltFrom taxiParts ∧
      (∀ ancestor ∈ [taxi, car, vehicle],
        Mapping.keys ancestor.fields <+: Mapping.keys taxi.fields ∧
          taxi.isSubclassOf ancestor = true) ∧
      (Mapping.keys taxi.fields).Nodup ∧
      (∀ key ∈ Mapping.keys taxi.fields, isFieldName key = true) ∧
      ∀ key, Mapping.lookup taxi.fields key = (nearest? taxiParts key).map Field.copy := by
  have isVehicle : build "Vehicle" none [.string "plate", .int "wheels"] = .ok vehicle := rfl
  have isCar : build "Car" (some vehicle) [carWheels] = .ok car := rfl
  have isOwn : build "Taxi" (some car) [.int "meter", (Field.string "plate").setRequired true] =
      .ok taxi := rfl
  have isTaxi : taxi.BuiltFrom taxiParts := .derived (.derived (.root isVehicle) isCar) isOwn
  exact ⟨isTaxi, isTaxi.defaults_are_inherited⟩

end SchemaTree.DocumentType
