import Dander.Identifiers
import Dander.PythonValues

/-!
# Canonical relation schemas

The provider-neutral schema of a relation: a field has a logical type, a cardinality and the
annotations of providers, and arrays and records nest. What the validators refuse cannot be built,
except that the names of the fields of a record are checked where a record is made.
-/
namespace Dander.Warehouse

inductive SchemaError where
  | validation (message : String)
  | compatibility (message : String)
  | value (message : String)
  deriving DecidableEq

section Patterns

def isLetter (c : Char) : Bool := isAlphanumeric c && !(48 ≤ c.toNat && c.toNat ≤ 57)

/-- `^[A-Za-z_][A-Za-z0-9_]{0,254}$` -/
def isIdentifier (text : String) : Bool :=
  match text.toList with
  | [] => false
  | first :: rest => (isLetter first || first = '_') && decide (rest.length ≤ 254) &&
      rest.all fun c => isAlphanumeric c || c = '_'

/-- `^[a-z][a-z0-9_]{0,62}$` -/
def isProvider (text : String) : Bool :=
  match text.toList with
  | [] => false
  | first :: rest => (isLetter first && isLowerOrDigit first) && decide (rest.length ≤ 62) &&
      rest.all fun c => isLowerOrDigit c || c = '_'

/-- `^[a-z][a-z0-9_.-]{0,126}$` -/
def isExtensionName (text : String) : Bool :=
  match text.toList with
  | [] => false
  | first :: rest => (isLetter first && isLowerOrDigit first) && decide (rest.length ≤ 126) &&
      rest.all fun c => isLowerOrDigit c || c = '_' || c = '.' || c = '-'

end Patterns

inductive ExtensionScalar where
  | str (value : String)
  | int (value : ℤ)
  | float (value : Python.Float)
  | bool (value : Bool)
  deriving DecidableEq

/-- A provider-specific annotation of a field. -/
structure ProviderExtension where
  provider : String
  name : String
  value : ExtensionScalar
  providerValid : isProvider provider = true
  nameValid : isExtensionName name = true
  deriving DecidableEq

def ProviderExtension.key (extension : ProviderExtension) : String ×ₗ String :=
  toLex (extension.provider, extension.name)

/-- `sorted(extensions, key=lambda extension: (extension.provider, extension.name))` -/
def sortedExtensions (extensions : List ProviderExtension) : List ProviderExtension :=
  extensions.insertionSort fun first second => first.key ≤ second.key

inductive FieldCardinality where
  | nullable
  | required
  deriving DecidableEq

/-- The widths of integers; floats have the last two. -/
inductive BitWidth where
  | eight
  | sixteen
  | thirtyTwo
  | sixtyFour
  deriving DecidableEq

/-- A named field of a relation or of a record, over the type of the types. -/
structure FieldOf (T : Type) where
  name : String
  dataType : T
  cardinality : FieldCardinality
  description : String
  extensions : List ProviderExtension
  nameValid : isIdentifier name = true
  extensionsValid : (extensions.map ProviderExtension.key).Pairwise (· < ·)

inductive CanonicalType where
  | boolean
  | integer (bitWidth : BitWidth)
  | decimal (precision scale : ℕ) (valid : 1 ≤ precision ∧ precision ≤ 1000 ∧ scale ≤ precision)
  | float (single : Bool)
  | string
  | binary
  | date
  | time (fractionalSecondPrecision : Fin 10)
  | timestamp (withTimezone : Bool) (fractionalSecondPrecision : Fin 10)
  | json
  | array (element : CanonicalType)
  | record (fields : List (FieldOf CanonicalType))

abbrev CanonicalField := FieldOf CanonicalType

section Construction

/-- The names of a list of fields are different. -/
def uniqueNames (fields : List CanonicalField) : Bool := decide (fields.map FieldOf.name).Nodup

/-- `CanonicalType(kind=LogicalTypeKind.RECORD, fields=fields)` -/
def CanonicalType.ofFields (fields : List CanonicalField) : Except SchemaError CanonicalType :=
  if fields.isEmpty then .error (.validation "record must declare fields")
  else if uniqueNames fields then .ok (.record fields)
  else .error (.validation "record field names must be unique")

/-- `CanonicalField(name=name, ...)` with the default description. -/
def CanonicalField.of (name : String) (dataType : CanonicalType) (cardinality : FieldCardinality)
    (extensions : List ProviderExtension) : Except SchemaError CanonicalField :=
  if hname : isIdentifier name = true then
    if hkeys : (extensions.map ProviderExtension.key).Pairwise (· < ·) then
      .ok ⟨name, dataType, cardinality, "", extensions, hname, hkeys⟩
    else if (extensions.map ProviderExtension.key).Nodup then
      .error (.validation "provider extensions must use deterministic provider/name order")
    else .error (.validation "provider extensions must not contain duplicate keys")
  else .error (.validation "canonical field name must be a portable identifier")

structure RelationSchema where
  fields : List CanonicalField
  declared : fields ≠ []
  unique : uniqueNames fields = true

/-- `RelationSchema(fields=fields)` -/
def RelationSchema.of (fields : List CanonicalField) : Except SchemaError RelationSchema :=
  if hdeclared : fields ≠ [] then
    if hunique : uniqueNames fields = true then .ok ⟨fields, hdeclared, hunique⟩
    else .error (.validation "relation field names must be unique")
  else .error (.validation "Tuple should have at least 1 item after validation")

theorem CanonicalType.ofFields_eq_ok {fields : List CanonicalField} {dataType : CanonicalType}
    (h : CanonicalType.ofFields fields = .ok dataType) : dataType = .record fields := by
  unfold CanonicalType.ofFields at h
  split at h
  · cases h
  · split at h
    · cases h
      rfl
    · cases h

theorem RelationSchema.of_eq_ok {fields : List CanonicalField} {schema : RelationSchema}
    (h : RelationSchema.of fields = .ok schema) : schema.fields = fields := by
  unfold RelationSchema.of at h
  split at h
  · split at h
    · cases h
      rfl
    · cases h
  · cases h

/-- What a field that was made holds. -/
theorem CanonicalField.of_eq_ok {name : String} {dataType : CanonicalType}
    {cardinality : FieldCardinality} {extensions : List ProviderExtension}
    {field : CanonicalField} (h : CanonicalField.of name dataType cardinality extensions = .ok field) :
    field.name = name ∧ field.dataType = dataType ∧ field.cardinality = cardinality ∧
      field.extensions = extensions := by
  unfold CanonicalField.of at h
  split at h
  · split at h
    · cases h
      exact ⟨rfl, rfl, rfl, rfl⟩
    · split at h <;> cases h
  · cases h

end Construction

section Sorting

variable {extensions others : List ProviderExtension}

theorem perm_sortedExtensions : (sortedExtensions extensions).Perm extensions :=
  List.perm_insertionSort _ _

theorem key_le_total (first second : ProviderExtension) :
    first.key ≤ second.key ∨ second.key ≤ first.key := le_total _ _

theorem pairwise_sortedExtensions :
    (sortedExtensions extensions).Pairwise fun first second => first.key ≤ second.key := by
  have htotal : Std.Total fun first second : ProviderExtension => first.key ≤ second.key :=
    ⟨key_le_total⟩
  have htrans : IsTrans ProviderExtension fun first second => first.key ≤ second.key :=
    ⟨fun first second third => le_trans⟩
  exact List.pairwise_insertionSort _ _

/-- Extensions in strict order of their keys are what sorting any arrangement of them gives. -/
theorem sortedExtensions_eq (hperm : others.Perm extensions)
    (hstrict : (others.map ProviderExtension.key).Pairwise (· < ·)) :
    sortedExtensions extensions = others := by
  have hothers := List.pairwise_map.mp hstrict
  have hnodup : (others.map ProviderExtension.key).Nodup := hstrict.imp fun hlt => hlt.ne
  refine List.Perm.eq_of_pairwise ?_ pairwise_sortedExtensions (hothers.imp fun hlt => hlt.le)
    (perm_sortedExtensions.trans hperm.symm)
  intro first second hfirst hsecond hle hge
  have hmem : first ∈ others := hperm.symm.subset (perm_sortedExtensions.subset hfirst)
  exact List.inj_on_of_nodup_map hnodup hmem hsecond (le_antisymm hle hge)

end Sorting

end Dander.Warehouse
