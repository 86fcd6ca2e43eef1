import Dander.CanonicalSchemas
import Dander.Execution

/-!
# BigQuery schemas and canonical schemas

A BigQuery field declaration becomes a canonical field, with the declared type and mode as
annotations, and the writer makes a BigQuery declaration of it again.
-/
namespace Dander.Warehouse

/-- One declared target column, including nested and repeated BigQuery fields. -/
structure WriteField where
  name : String
  dataType : String
  mode : String
  fields : List WriteField
  extensions : List ProviderExtension

def bigqueryTypeAliases : List (String × String) :=
  [("BOOLEAN", "BOOL"), ("FLOAT", "FLOAT64"), ("INTEGER", "INT64"), ("STRUCT", "RECORD")]

section Canonical

variable (upper : String → String) (unsupportedFallbacks : String → Option CanonicalType)

def normalizeBigqueryType (value : String) : String :=
  (bigqueryTypeAliases.lookup (upper value)).getD (upper value)

def scalarTypes : List (String × CanonicalType) :=
  [("BOOL", .boolean), ("BYTES", .binary), ("DATE", .date), ("FLOAT64", .float false),
    ("INT64", .integer .sixtyFour), ("JSON", .json), ("STRING", .string), ("TIME", .time 6),
    ("TIMESTAMP", .timestamp true 6), ("DATETIME", .timestamp false 6),
    ("NUMERIC", .decimal 38 9 (by decide))]

/-- `nested` is what the nested fields become. -/
def canonicalBaseType (dataType : String) (nestedFields : List WriteField)
    (nested : Except SchemaError (List CanonicalField)) : Except SchemaError CanonicalType := do
  if dataType = "RECORD" then
    if nestedFields.isEmpty then
      throw (.compatibility "BigQuery RECORD must declare nested fields")
    let fields ← nested
    CanonicalType.ofFields fields
  else
    if !nestedFields.isEmpty then
      throw (.compatibility s!"BigQuery {dataType} field cannot declare nested fields")
    match scalarTypes.lookup dataType with
    | some mapped => return mapped
    | none =>
      match unsupportedFallbacks dataType with
      | some fallback => return fallback
      | none => throw (.compatibility
          s!"BigQuery type '{dataType}' requires an explicit canonical fallback")

/-- An annotation with the provider `bigquery`. -/
def bigqueryAnnotation (name value : String) (h : isExtensionName name = true) :
    ProviderExtension :=
  ⟨"bigquery", name, .str value, by decide, h⟩

def annotationOfMode (mode : String) : ProviderExtension :=
  bigqueryAnnotation "mode" mode (by decide)

def annotationOfType (dataType : String) : ProviderExtension :=
  bigqueryAnnotation "type" dataType (by decide)

mutual

def canonicalFieldFromBigquery : WriteField → Except SchemaError CanonicalField
  | ⟨name, declaredType, declaredMode, fields, extensions⟩ => do
    let dataType := normalizeBigqueryType upper declaredType
    let mode := upper declaredMode
    let baseType ← canonicalBaseType unsupportedFallbacks dataType fields
      (canonicalFieldsFromBigquery fields)
    let canonicalType := if mode = "REPEATED" then CanonicalType.array baseType else baseType
    if mode ≠ "NULLABLE" ∧ mode ≠ "REQUIRED" ∧ mode ≠ "REPEATED" then
      throw (.compatibility s!"Unsupported BigQuery field mode: {mode}")
    let cardinality :=
      if mode = "NULLABLE" then FieldCardinality.nullable else FieldCardinality.required
    CanonicalField.of name canonicalType cardinality
      (sortedExtensions (extensions ++ [annotationOfMode mode, annotationOfType dataType]))

def canonicalFieldsFromBigquery : List WriteField → Except SchemaError (List CanonicalField)
  | [] => .ok []
  | field :: rest => do
    let canonical ← canonicalFieldFromBigquery field
    let others ← canonicalFieldsFromBigquery rest
    return canonical :: others

end

def canonicalSchemaFromBigquery (fields : List WriteField) : Except SchemaError RelationSchema := do
  if fields.isEmpty then
    throw (.compatibility
      "Canonical schema compatibility requires at least one declared BigQuery field")
  let canonical ← canonicalFieldsFromBigquery upper unsupportedFallbacks fields
  RelationSchema.of canonical

end Canonical

section Native

def nativeType : CanonicalType → Except SchemaError String
  | .boolean => .ok "BOOL"
  | .integer _ => .ok "INT64"
  | .float _ => .ok "FLOAT64"
  | .string => .ok "STRING"
  | .binary => .ok "BYTES"
  | .date => .ok "DATE"
  | .json => .ok "JSON"
  | .record _ => .ok "RECORD"
  | .decimal precision scale _ =>
    if scale ≤ 9 ∧ precision - scale ≤ 29 then .ok "NUMERIC"
    else .error (.value "Canonical decimal exceeds BigQuery NUMERIC precision or scale")
  | .time precision =>
    if precision.val > 6 then .error (.value "BigQuery supports temporal precision up to 6")
    else .ok "TIME"
  | .timestamp withTimezone precision =>
    if precision.val > 6 then .error (.value "BigQuery supports temporal precision up to 6")
    else .ok (if withTimezone then "TIMESTAMP" else "DATETIME")
  | .array _ => .error (.value "BigQuery cannot represent canonical type 'array'")

/-- The annotations that restate the type and the mode of a field. -/
def restates (extension : ProviderExtension) : Bool :=
  decide (extension.provider = "bigquery") &&
    (decide (extension.name = "type") || decide (extension.name = "mode"))

/-- The check of the annotations of a field against its canonical type. -/
def checkAnnotations (name native mode : String) (extensions : List ProviderExtension) :
    Except SchemaError Unit :=
  extensions.forM fun extension =>
    let expected := if extension.name = "type" then native else mode
    if restates extension && !decide (extension.value = .str expected) then
      throw (.value s!"BigQuery {extension.name} annotation conflicts with canonical field '{name}'")
    else pure ()

/-- The type of the values of a column, and the mode of the column. -/
def columnType (dataType : CanonicalType) (cardinality : FieldCardinality) :
    Except SchemaError (CanonicalType × String) :=
  match dataType, cardinality with
  | .array element, .required => .ok (element, "REPEATED")
  | .array _, .nullable =>
    .error (.value "BigQuery repeated fields cannot preserve nullable arrays")
  | dataType, .required => .ok (dataType, "REQUIRED")
  | dataType, .nullable => .ok (dataType, "NULLABLE")

mutual

def writeField : CanonicalField → Except SchemaError WriteField
  | ⟨name, dataType, cardinality, _, extensions, _, _⟩ => do
    let (valueType, mode) ← columnType dataType cardinality
    let native ← nativeType valueType
    checkAnnotations name native mode extensions
    let children ← childFields dataType
    return ⟨name, native, mode, children, extensions.filter fun extension => !restates extension⟩

/-- The nested columns of a type or of the elements of an array. -/
def childFields : CanonicalType → Except SchemaError (List WriteField)
  | .record fields => writeFields fields
  | .array (.record fields) => writeFields fields
  | _ => .ok []

def writeFields : List CanonicalField → Except SchemaError (List WriteField)
  | [] => .ok []
  | field :: rest => do
    let written ← writeField field
    let others ← writeFields rest
    return written :: others

end

def bigqueryWriteFields (schema : RelationSchema) : Except SchemaError (List WriteField) :=
  writeFields schema.fields

end Native

section Annotations

variable {extensions : List ProviderExtension} {name native mode : String}

theorem keys_of_restates (native mode : String) {extension : ProviderExtension}
    (h : restates extension = true) : extension.key = (annotationOfType native).key ∨
      extension.key = (annotationOfMode mode).key := by
  simp only [restates, Bool.and_eq_true, Bool.or_eq_true, decide_eq_true_eq] at h
  obtain ⟨hprovider, hname | hname⟩ := h
  · exact .inl (by rw [ProviderExtension.key, hprovider, hname]; rfl)
  · exact .inr (by rw [ProviderExtension.key, hprovider, hname]; rfl)

/-- The annotations that the mapping adds to those of a field. -/
def annotated (extensions : List ProviderExtension) (native mode : String) :
    List ProviderExtension :=
  sortedExtensions (extensions ++ [annotationOfMode mode, annotationOfType native])

theorem perm_annotated : (annotated extensions native mode).Perm
    (extensions ++ [annotationOfMode mode, annotationOfType native]) := perm_sortedExtensions

theorem keys_nodup
    (hstrict : ((annotated extensions native mode).map ProviderExtension.key).Pairwise (· < ·)) :
    ((extensions ++ [annotationOfMode mode, annotationOfType native]).map
      ProviderExtension.key).Nodup := by
  have hnodup : ((annotated extensions native mode).map ProviderExtension.key).Nodup :=
    hstrict.imp fun hlt => hlt.ne
  exact (perm_annotated.map ProviderExtension.key).nodup_iff.mp hnodup

/-- Since keys are different, only the added annotations restate the type and the mode. -/
theorem eq_of_restates
    (hstrict : ((annotated extensions native mode).map ProviderExtension.key).Pairwise (· < ·))
    {extension : ProviderExtension}
    (hmem : extension ∈ extensions ++ [annotationOfMode mode, annotationOfType native])
    (h : restates extension = true) :
    extension = annotationOfType native ∨ extension = annotationOfMode mode := by
  have hinj := List.inj_on_of_nodup_map (keys_nodup hstrict)
  rcases keys_of_restates native mode h with hkey | hkey
  · exact .inl (hinj hmem (by simp) hkey)
  · exact .inr (hinj hmem (by simp) hkey)

theorem checkAnnotations_annotated
    (hstrict : ((annotated extensions native mode).map ProviderExtension.key).Pairwise (· < ·)) :
    checkAnnotations name native mode (annotated extensions native mode) = .ok () := by
  refine Execution.forM_eq_ok.mpr ?_
  intro extension hmem
  cases hrestates : restates extension with
  | false => rfl
  | true =>
    rcases eq_of_restates hstrict (perm_annotated.subset hmem) hrestates with rfl | rfl
    · simp [annotationOfType, bigqueryAnnotation, pure, Except.pure]
    · simp [annotationOfMode, bigqueryAnnotation, pure, Except.pure]

/-- The annotations that are written are those of the declaration. -/
theorem filter_annotated
    (hstrict : ((annotated extensions native mode).map ProviderExtension.key).Pairwise (· < ·)) :
    (annotated extensions native mode).filter (fun extension => !restates extension) =
      sortedExtensions extensions := by
  have hkept : extensions.filter (fun extension => !restates extension) = extensions := by
    refine List.filter_eq_self.mpr ?_
    intro extension hmem
    cases hrestates : restates extension with
    | false => rfl
    | true =>
      have hnodup := keys_nodup hstrict
      rw [List.map_append] at hnodup
      have hdisjoint := List.disjoint_of_nodup_append hnodup
      have hkey := List.mem_map_of_mem (f := ProviderExtension.key) hmem
      rcases keys_of_restates native mode hrestates with h | h
      · exact absurd (h ▸ hkey) fun hkey => hdisjoint hkey (by simp)
      · exact absurd (h ▸ hkey) fun hkey => hdisjoint hkey (by simp)
  have hadded : restates (annotationOfMode mode) = true ∧ restates (annotationOfType native) = true :=
    ⟨rfl, rfl⟩
  have hall : (annotated extensions native mode).Perm
      (extensions ++ [annotationOfMode mode, annotationOfType native]) := perm_annotated
  have hperm := hall.filter fun extension => !restates extension
  rw [List.filter_append, hkept] at hperm
  simp only [List.filter_cons, hadded, Bool.not_true, Bool.false_eq_true, if_false,
    List.filter_nil, List.append_nil] at hperm
  refine (sortedExtensions_eq hperm ?_).symm
  exact hstrict.sublist (List.filter_sublist.map _)

end Annotations

section RoundTrip

variable (upper : String → String)

mutual

/-- A declaration with its type normalized, its mode in upper case and its annotations in order,
at every level. -/
def normalized : WriteField → WriteField
  | ⟨name, dataType, mode, fields, extensions⟩ =>
    ⟨name, normalizeBigqueryType upper dataType, upper mode, normalizedFields fields,
      sortedExtensions extensions⟩

def normalizedFields : List WriteField → List WriteField
  | [] => []
  | field :: rest => normalized field :: normalizedFields rest

end

theorem normalizedFields_eq_map (fields : List WriteField) :
    normalizedFields upper fields = fields.map (normalized upper) := by
  induction fields with
  | nil => rfl
  | cons field rest ih => rw [normalizedFields, ih, List.map_cons]

variable {upper}

/-- A base type is a record of the nested fields or a scalar without nested fields. -/
theorem canonicalBaseType_eq_ok {dataType : String} {fields : List WriteField}
    {nested : Except SchemaError (List CanonicalField)} {base : CanonicalType}
    (h : canonicalBaseType (fun _ => none) dataType fields nested = .ok base) :
    (dataType = "RECORD" ∧ ∃ children, nested = .ok children ∧ base = .record children) ∨
      (fields = [] ∧ (dataType, base) ∈ scalarTypes) := by
  unfold canonicalBaseType at h
  split at h
  next hrecord =>
    obtain ⟨-, h⟩ := Execution.guard_eq_ok h
    obtain ⟨children, hnested, h⟩ := Execution.bind_eq_ok h
    exact .inl ⟨hrecord, children, hnested, CanonicalType.ofFields_eq_ok h⟩
  next =>
    obtain ⟨hempty, h⟩ := Execution.guard_eq_ok h
    refine .inr ⟨by simpa using hempty, ?_⟩
    split at h
    next mapped hmapped =>
      cases h
      obtain ⟨before, after, hsplit, -⟩ := List.lookup_eq_some_iff.mp hmapped
      rw [hsplit]
      exact List.mem_append_right before List.mem_cons_self
    next => cases h

theorem nativeType_scalar {dataType : String} {base : CanonicalType}
    (h : (dataType, base) ∈ scalarTypes) :
    nativeType base = .ok dataType ∧ childFields base = .ok [] ∧
      childFields (.array base) = .ok [] ∧ ∀ element, base ≠ .array element := by
  simp only [scalarTypes, List.mem_cons, Prod.mk.injEq, List.not_mem_nil, or_false] at h
  rcases h with ⟨rfl, rfl⟩ | ⟨rfl, rfl⟩ | ⟨rfl, rfl⟩ | ⟨rfl, rfl⟩ | ⟨rfl, rfl⟩ | ⟨rfl, rfl⟩ |
    ⟨rfl, rfl⟩ | ⟨rfl, rfl⟩ | ⟨rfl, rfl⟩ | ⟨rfl, rfl⟩ | ⟨rfl, rfl⟩ <;>
  exact ⟨rfl, rfl, rfl, fun element => nofun⟩

theorem columnType_single {base : CanonicalType} (h : ∀ element, base ≠ .array element)
    (cardinality : FieldCardinality) : columnType base cardinality =
      .ok (base, if cardinality = .nullable then "NULLABLE" else "REQUIRED") := by
  cases base with
  | array element => exact absurd rfl (h element)
  | _ => cases cardinality <;> rfl

/-- The column of a field whose base type is written as the declared type. -/
theorem columnType_of_mode {base : CanonicalType} {mode : String}
    (hbase : ∀ element, base ≠ .array element)
    (hmode : ¬ (mode ≠ "NULLABLE" ∧ mode ≠ "REQUIRED" ∧ mode ≠ "REPEATED")) :
    columnType (if mode = "REPEATED" then .array base else base)
      (if mode = "NULLABLE" then .nullable else .required) = .ok (base, mode) := by
  have hmodes : mode = "NULLABLE" ∨ mode = "REQUIRED" ∨ mode = "REPEATED" := by
    by_contra hnot
    exact hmode (by simpa [not_or] using hnot)
  rcases hmodes with rfl | rfl | rfl
  · rw [if_neg (by decide), columnType_single hbase]
    rfl
  · rw [if_neg (by decide), columnType_single hbase]
    rfl
  · rfl

/-- What is written of a field that was made of a declaration, once its base type is known. -/
theorem writeField_of {name native mode : String} {base : CanonicalType}
    {extensions : List ProviderExtension} {children : List WriteField} {field : CanonicalField}
    (hbase : ∀ element, base ≠ .array element) (hnative : nativeType base = .ok native)
    (hchildren : childFields (if mode = "REPEATED" then .array base else base) = .ok children)
    (hmode : ¬ (mode ≠ "NULLABLE" ∧ mode ≠ "REQUIRED" ∧ mode ≠ "REPEATED"))
    (h : CanonicalField.of name (if mode = "REPEATED" then .array base else base)
      (if mode = "NULLABLE" then .nullable else .required)
      (annotated extensions native mode) = .ok field) :
    writeField field = .ok ⟨name, native, mode, children, sortedExtensions extensions⟩ := by
  obtain ⟨hname, htype, hcardinality, hextensions⟩ := CanonicalField.of_eq_ok h
  obtain ⟨name', dataType, cardinality, description, written, hvalid, hstrict⟩ := field
  dsimp only at hname htype hcardinality hextensions
  subst hname htype hcardinality hextensions
  unfold writeField
  rw [columnType_of_mode hbase hmode, Execution.ok_bind]
  dsimp only
  rw [hnative, Execution.ok_bind, checkAnnotations_annotated hstrict, Execution.ok_bind,
    hchildren, Execution.ok_bind, filter_annotated hstrict]
  rfl

mutual

theorem writeField_canonical : ∀ (field : WriteField) {canonical : CanonicalField},
    canonicalFieldFromBigquery upper (fun _ => none) field = .ok canonical →
      writeField canonical = .ok (normalized upper field)
  | ⟨name, dataType, mode, fields, extensions⟩, canonical, h => by
    unfold canonicalFieldFromBigquery at h
    obtain ⟨base, hbase, hchecked⟩ := Execution.bind_eq_ok h
    obtain ⟨hmode, hmade⟩ := Execution.guard_eq_ok hchecked
    rw [normalized]
    rcases canonicalBaseType_eq_ok hbase with ⟨hrecord, children, hnested, rfl⟩ |
      ⟨hempty, hscalar⟩
    · have hwritten := writeFields_canonical fields hnested
      refine writeField_of (by intro element heq; cases heq) (by rw [hrecord]; rfl) ?_ hmode hmade
      split
      · exact hwritten
      · exact hwritten
    · obtain ⟨hnative, hplain, harray, hnot⟩ := nativeType_scalar hscalar
      rw [hempty]
      refine writeField_of hnot hnative ?_ hmode hmade
      split
      · exact harray
      · exact hplain

theorem writeFields_canonical : ∀ (fields : List WriteField) {canonical : List CanonicalField},
    canonicalFieldsFromBigquery upper (fun _ => none) fields = .ok canonical →
      writeFields canonical = .ok (normalizedFields upper fields)
  | [], canonical, h => by
    cases h
    rfl
  | field :: rest, canonical, h => by
    obtain ⟨first, hfirst, h⟩ := Execution.bind_eq_ok h
    obtain ⟨others, hothers, h⟩ := Execution.bind_eq_ok h
    cases h
    rw [writeFields, writeField_canonical field hfirst, Execution.ok_bind,
      writeFields_canonical rest hothers, Execution.ok_bind]
    rfl

end

/-- A declaration that has a canonical schema without fallbacks is written back as it was, with
types, modes and annotations normalized at every level. -/
theorem bigqueryWriteFields_canonical (upper : String → String) (fields : List WriteField)
    (schema : RelationSchema)
    (h : canonicalSchemaFromBigquery upper (fun _ => none) fields = .ok schema) :
    bigqueryWriteFields schema = .ok (fields.map (normalized upper)) := by
  obtain ⟨-, hmapped⟩ := Execution.guard_eq_ok h
  obtain ⟨canonical, hcanonical, hmade⟩ := Execution.bind_eq_ok hmapped
  rw [bigqueryWriteFields, RelationSchema.of_eq_ok hmade, writeFields_canonical fields hcanonical,
    normalizedFields_eq_map]

def exampleFields : List WriteField :=
  [⟨"id", "Integer", "required", [], []⟩,
    ⟨"lines", "struct", "Repeated", [⟨"amount", "numeric", "nullable", [],
      [⟨"snowflake", "kind", .str "number", by decide, by decide⟩]⟩], []⟩]

theorem bigqueryWriteFields_canonical_example : ∃ schema,
    canonicalSchemaFromBigquery String.toUpper (fun _ => none) exampleFields = .ok schema ∧
      bigqueryWriteFields schema = .ok (exampleFields.map (normalized String.toUpper)) := by
  have hsome : (canonicalSchemaFromBigquery String.toUpper (fun _ => none)
      exampleFields).toOption.isSome = true := by decide +kernel
  obtain ⟨schema, hschema⟩ := Option.isSome_iff_exists.mp hsome
  have hok := Execution.eq_ok_of_toOption hschema
  exact ⟨schema, hok, bigqueryWriteFields_canonical String.toUpper exampleFields schema hok⟩

example : (exampleFields.map (normalized String.toUpper)).map WriteField.mode =
    ["REQUIRED", "REPEATED"] := by decide +kernel

end RoundTrip

end Dander.Warehouse
