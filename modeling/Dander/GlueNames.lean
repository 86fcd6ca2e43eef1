import Dander.CanonicalSchemas
import Dander.PercentText

/-!
# Glue names

A catalog asset is published under a database and a table name. A text that is a Glue name already
is kept; any other is normalized, cut, and marked with a digest of what it names.
-/
namespace Dander.Glue

open PercentText (octets split_inj)
open Warehouse (isIdentifier)

/-- `^[A-Za-z_][A-Za-z0-9_-]{0,254}$` -/
def isCatalog (text : String) : Bool :=
  match text.toList with
  | [] => false
  | first :: rest => (Warehouse.isLetter first || first = '_') && decide (rest.length ≤ 254) &&
      rest.all fun c => isAlphanumeric c || c = '_' || c = '-'

/-- The coordinates of a relation. -/
structure RelationRef where
  catalog : String
  namespaceName : String
  name : String
  catalogValid : isCatalog catalog = true
  namespaceValid : isIdentifier namespaceName = true
  nameValid : isIdentifier name = true

/-- The first ten hexadecimal digits of the SHA-256 digest of a text. -/
structure Digest where
  text : List Char → List Char
  length : ∀ identity, (text identity).length = 10
  digits : ∀ identity, ∀ c ∈ text identity, (97 ≤ c.toNat ∧ c.toNat ≤ 102) ∨
    (48 ≤ c.toNat ∧ c.toNat ≤ 57)

section Names

variable (lower : List Char → List Char) (digest : Digest)

/-- `[a-z0-9_]` -/
def isNameChar (c : Char) : Bool := isLowerOrDigit c || c = '_'

/-- `_NON_NAME.sub("_", text)`: one underscore for each run of other characters. -/
def replaceRuns : Bool → List Char → List Char
  | _, [] => []
  | inRun, c :: rest =>
    if isNameChar c then c :: replaceRuns false rest
    else if inRun then replaceRuns true rest
    else '_' :: replaceRuns true rest

def withoutTrailing (text : List Char) : List Char := text.rdropWhile fun c => c = '_'

def strip (text : List Char) : List Char := withoutTrailing (text.dropWhile fun c => c = '_')

def normalizedName (value : List Char) : List Char :=
  let stripped := strip (replaceRuns false (lower value))
  if stripped.isEmpty then "relation".toList else stripped

/-- A text that is its own Glue name. -/
def Kept (value : List Char) : Prop :=
  normalizedName lower value = value ∧ (octets value).length ≤ 255

def markedName (value identity : List Char) : List Char :=
  withoutTrailing ((normalizedName lower value).take 244) ++ '_' :: digest.text identity

/-- `_glue_name` -/
def glueName (value identity : List Char) : List Char :=
  let normalized := normalizedName lower value
  if normalized ≠ value ∨ 255 < (octets normalized).length then markedName lower digest value identity
  else normalized

/-- What the database of a relation is named after. -/
def databaseValue (databasePrefix : List Char) (relation : RelationRef) : List Char :=
  databasePrefix ++ '_' :: relation.catalog.toList ++ '_' :: relation.namespaceName.toList

def databaseIdentity (relation : RelationRef) : List Char :=
  relation.catalog.toList ++ '.' :: relation.namespaceName.toList

/-- `asset.relation` -/
def relationIdentity (relation : RelationRef) : List Char :=
  relation.catalog.toList ++ '.' :: (relation.namespaceName.toList ++ '.' :: relation.name.toList)

def databaseName (databasePrefix : List Char) (relation : RelationRef) : List Char :=
  glueName lower digest (databaseValue databasePrefix relation) (databaseIdentity relation)

def tableName (relation : RelationRef) : List Char :=
  glueName lower digest relation.name.toList (relationIdentity relation)

end Names

section Validity

variable {lower : List Char → List Char} {digest : Digest}

structure ValidName (name : List Char) : Prop where
  nonempty : name ≠ []
  bytes : (octets name).length ≤ 255
  chars : ∀ c ∈ name, isNameChar c = true

theorem isNameChar_lt {c : Char} (h : isNameChar c = true) : c.toNat < 128 := by
  simp only [isNameChar, isLowerOrDigit, Bool.or_eq_true, Bool.and_eq_true, decide_eq_true_eq] at h
  rcases h with (h | h) | rfl
  · omega
  · omega
  · decide

theorem length_octets {name : List Char} (h : ∀ c ∈ name, c.toNat < 128) :
    (octets name).length = name.length := by
  induction name with
  | nil => rfl
  | cons c rest ih =>
    have hc : (String.utf8EncodeChar c).length = 1 := by
      have hlt := h c List.mem_cons_self
      have hsize : c.utf8Size = 1 := by
        rw [Char.utf8Size_eq_one_iff]
        show c.toNat ≤ 127
        omega
      rw [String.length_utf8EncodeChar, hsize]
    have hrest := ih fun d hd => h d (List.mem_cons_of_mem _ hd)
    simp only [octets, List.flatMap_cons, List.length_append, List.length_cons] at hrest ⊢
    omega

theorem isNameChar_replaceRuns {text : List Char} {inRun : Bool} :
    ∀ c ∈ replaceRuns inRun text, isNameChar c = true := by
  induction text generalizing inRun with
  | nil =>
    intro c hc
    cases hc
  | cons d rest ih =>
    intro c hc
    rw [replaceRuns] at hc
    split at hc
    next hname =>
      rcases List.mem_cons.mp hc with rfl | hrest
      · exact hname
      · exact ih c hrest
    next =>
      split at hc
      · exact ih c hc
      · rcases List.mem_cons.mp hc with rfl | hrest
        · rfl
        · exact ih c hrest

theorem mem_of_mem_withoutTrailing {text : List Char} {c : Char} (h : c ∈ withoutTrailing text) :
    c ∈ text := (List.rdropWhile_prefix _ _).subset h

theorem normalizedName_valid (value : List Char) :
    normalizedName lower value ≠ [] ∧ ∀ c ∈ normalizedName lower value, isNameChar c = true := by
  unfold normalizedName
  dsimp only
  split
  · have hall : "relation".toList.all isNameChar = true := by decide
    exact ⟨by decide, List.all_eq_true.mp hall⟩
  next hne =>
    refine ⟨by simpa using hne, ?_⟩
    intro c hc
    have hstripped := mem_of_mem_withoutTrailing hc
    exact isNameChar_replaceRuns c ((List.dropWhile_suffix _).subset hstripped)

theorem markedName_valid (value identity : List Char) :
    ValidName (markedName lower digest value identity) := by
  have hchars : ∀ c ∈ markedName lower digest value identity, isNameChar c = true := by
    intro c hc
    rcases List.mem_append.mp hc with hstem | hmark
    · exact (normalizedName_valid value).2 c
        (List.mem_of_mem_take (mem_of_mem_withoutTrailing hstem))
    · rcases List.mem_cons.mp hmark with rfl | hdigit
      · rfl
      · have hrange := digest.digits identity c hdigit
        simp only [isNameChar, isLowerOrDigit, Bool.or_eq_true, Bool.and_eq_true,
          decide_eq_true_eq]
        omega
  refine ⟨by simp [markedName], ?_, hchars⟩
  rw [length_octets fun c hc => isNameChar_lt (hchars c hc)]
  have hstem : (withoutTrailing ((normalizedName lower value).take 244)).length ≤ 244 := by
    refine le_trans (List.rdropWhile_prefix _ _).length_le ?_
    rw [List.length_take]
    omega
  rw [markedName, List.length_append, List.length_cons, digest.length]
  omega

theorem glueName_of_kept {value : List Char} (h : Kept lower value) (identity : List Char) :
    glueName lower digest value identity = value := by
  unfold glueName
  dsimp only
  rw [if_neg, h.1]
  rw [not_or, not_not, not_lt, h.1]
  exact ⟨rfl, h.2⟩

theorem glueName_of_not_kept {value : List Char} (h : ¬ Kept lower value) (identity : List Char) :
    glueName lower digest value identity = markedName lower digest value identity := by
  unfold glueName
  dsimp only
  rw [if_pos]
  by_contra hnot
  rw [not_or, not_not, not_lt] at hnot
  exact h ⟨hnot.1, by rw [← hnot.1]; exact hnot.2⟩

theorem glueName_valid (value identity : List Char) :
    ValidName (glueName lower digest value identity) := by
  by_cases h : Kept lower value
  · rw [glueName_of_kept h]
    have hvalid := @normalizedName_valid lower value
    rw [h.1] at hvalid
    exact ⟨hvalid.1, h.2, hvalid.2⟩
  · rw [glueName_of_not_kept h]
    exact markedName_valid value identity

end Validity

section Collisions

variable {lower : List Char → List Char} {digest : Digest}

/-- Two texts that get one name: the same texts, texts that are both kept, or one that is kept and
is what the other is marked as. -/
def Meets (lower : List Char → List Char) (digest : Digest)
    (value identity value' identity' : List Char) : Prop :=
  (value = value' ∧ identity = identity') ∨
    (Kept lower value ∧ Kept lower value' ∧ value = value') ∨
    (Kept lower value ∧ ¬ Kept lower value' ∧ value = markedName lower digest value' identity') ∨
    (¬ Kept lower value ∧ Kept lower value' ∧ value' = markedName lower digest value identity)

theorem digest_of_markedName {value identity value' identity' : List Char}
    (h : markedName lower digest value identity = markedName lower digest value' identity') :
    digest.text identity = digest.text identity' := by
  have hlength : ('_' :: digest.text identity).length = ('_' :: digest.text identity').length := by
    rw [List.length_cons, List.length_cons, digest.length, digest.length]
  have hmarks := (List.append_inj' h hlength).2
  exact (List.cons.inj hmarks).2

/-- Where different identities have different digests, texts get one name only if they meet. -/
theorem glueName_eq_iff {value identity value' identity' : List Char}
    (hdigest : digest.text identity = digest.text identity' → identity = identity')
    (hvalue : identity = identity' → value = value') :
    glueName lower digest value identity = glueName lower digest value' identity' ↔
      Meets lower digest value identity value' identity' := by
  unfold Meets
  by_cases hkept : Kept lower value <;> by_cases hkept' : Kept lower value'
  · rw [glueName_of_kept hkept, glueName_of_kept hkept']
    simp only [hkept, hkept', true_and, not_true_eq_false, false_and, or_false]
    exact ⟨.inr, fun h => h.elim And.left id⟩
  · rw [glueName_of_kept hkept, glueName_of_not_kept hkept']
    simp only [hkept, hkept', true_and, not_false_eq_true, false_and, not_true_eq_false, or_false,
      false_or]
    refine ⟨.inr, fun h => h.elim ?_ id⟩
    rintro ⟨rfl, -⟩
    exact absurd hkept hkept'
  · rw [glueName_of_not_kept hkept, glueName_of_kept hkept']
    simp only [hkept, hkept', true_and, not_false_eq_true, false_and, not_true_eq_false, false_or]
    refine ⟨fun h => .inr h.symm, fun h => h.elim ?_ Eq.symm⟩
    rintro ⟨rfl, -⟩
    exact absurd hkept' hkept
  · rw [glueName_of_not_kept hkept, glueName_of_not_kept hkept']
    simp only [hkept, hkept', not_false_eq_true, false_and, and_false, or_false]
    constructor
    · intro h
      have hidentity := hdigest (digest_of_markedName h)
      exact ⟨hvalue hidentity, hidentity⟩
    · rintro ⟨rfl, rfl⟩
      rfl

theorem dot_not_mem_catalog (relation : RelationRef) : '.' ∉ relation.catalog.toList := by
  have hvalid := relation.catalogValid
  unfold isCatalog at hvalid
  cases htext : relation.catalog.toList with
  | nil => exact List.not_mem_nil
  | cons first rest =>
    rw [htext] at hvalid
    simp only [Bool.and_eq_true, List.all_eq_true] at hvalid
    intro hmem
    rcases List.mem_cons.mp hmem with rfl | hrest
    · exact absurd hvalid.1.1 (by decide)
    · exact absurd (hvalid.2 '.' hrest) (by decide)

theorem dot_not_mem_namespace (relation : RelationRef) :
    '.' ∉ relation.namespaceName.toList := by
  have hvalid := relation.namespaceValid
  unfold isIdentifier at hvalid
  cases htext : relation.namespaceName.toList with
  | nil => exact List.not_mem_nil
  | cons first rest =>
    rw [htext] at hvalid
    simp only [Bool.and_eq_true, List.all_eq_true] at hvalid
    intro hmem
    rcases List.mem_cons.mp hmem with rfl | hrest
    · exact absurd hvalid.1.1 (by decide)
    · exact absurd (hvalid.2 '.' hrest) (by decide)

theorem databaseIdentity_inj {first second : RelationRef}
    (h : databaseIdentity first = databaseIdentity second) :
    first.catalog = second.catalog ∧ first.namespaceName = second.namespaceName := by
  obtain ⟨hcatalog, hnamespace⟩ := split_inj (dot_not_mem_catalog first)
    (dot_not_mem_catalog second) h
  exact ⟨String.toList_injective hcatalog, String.toList_injective hnamespace⟩

theorem relationIdentity_inj {first second : RelationRef}
    (h : relationIdentity first = relationIdentity second) : first = second := by
  obtain ⟨hcatalog, hrest⟩ := split_inj (dot_not_mem_catalog first)
    (dot_not_mem_catalog second) h
  obtain ⟨hnamespace, hname⟩ := split_inj (dot_not_mem_namespace first)
    (dot_not_mem_namespace second) hrest
  obtain ⟨catalog, namespaceName, name⟩ := first
  obtain ⟨catalog', namespaceName', name'⟩ := second
  obtain rfl := String.toList_injective hcatalog
  obtain rfl := String.toList_injective hnamespace
  obtain rfl := String.toList_injective hname
  rfl

theorem databaseValue_of_identity {first second : RelationRef} (databasePrefix : List Char)
    (h : databaseIdentity first = databaseIdentity second) :
    databaseValue databasePrefix first = databaseValue databasePrefix second := by
  obtain ⟨hcatalog, hnamespace⟩ := databaseIdentity_inj h
  rw [databaseValue, databaseValue, hcatalog, hnamespace]

end Collisions

section Safety

variable (lower : List Char → List Char) (digest : Digest) (databasePrefix : List Char)
  (assets : Set RelationRef)

/-- What the digests are taken of. -/
def identities : Set (List Char) := databaseIdentity '' assets ∪ relationIdentity '' assets

/-- Every name is valid, and different assets get different pairs of names. -/
structure CollisionSafe : Prop where
  database : ∀ asset ∈ assets, ValidName (databaseName lower digest databasePrefix asset)
  table : ∀ asset ∈ assets, ValidName (tableName lower digest asset)
  different : ∀ asset ∈ assets, ∀ other ∈ assets, asset ≠ other →
    (databaseName lower digest databasePrefix asset, tableName lower digest asset) ≠
      (databaseName lower digest databasePrefix other, tableName lower digest other)

/-- The texts of two different assets do not meet both in the database and in the table. -/
def Apart : Prop :=
  ∀ asset ∈ assets, ∀ other ∈ assets, asset ≠ other →
    ¬ (Meets lower digest (databaseValue databasePrefix asset) (databaseIdentity asset)
        (databaseValue databasePrefix other) (databaseIdentity other) ∧
      Meets lower digest asset.name.toList (relationIdentity asset)
        other.name.toList (relationIdentity other))

/-- Where different identities have different digests, names are collision-safe if and only if the
texts they are made of are apart. -/
theorem glue_names (hdigest : ∀ first ∈ identities assets, ∀ second ∈ identities assets,
      digest.text first = digest.text second → first = second) :
    CollisionSafe lower digest databasePrefix assets ↔
      Apart lower digest databasePrefix assets := by
  have hpair : ∀ asset ∈ assets, ∀ other ∈ assets,
      (databaseName lower digest databasePrefix asset, tableName lower digest asset) =
        (databaseName lower digest databasePrefix other, tableName lower digest other) ↔
      Meets lower digest (databaseValue databasePrefix asset) (databaseIdentity asset)
          (databaseValue databasePrefix other) (databaseIdentity other) ∧
        Meets lower digest asset.name.toList (relationIdentity asset)
          other.name.toList (relationIdentity other) := by
    intro asset hasset other hother
    rw [Prod.mk.injEq]
    refine and_congr ?_ ?_
    · refine glueName_eq_iff ?_ (databaseValue_of_identity databasePrefix)
      exact hdigest _ (.inl ⟨asset, hasset, rfl⟩) _ (.inl ⟨other, hother, rfl⟩)
    · refine glueName_eq_iff ?_ fun h => by rw [relationIdentity_inj h]
      exact hdigest _ (.inr ⟨asset, hasset, rfl⟩) _ (.inr ⟨other, hother, rfl⟩)
  constructor
  · intro h asset hasset other hother hne
    rw [← hpair asset hasset other hother]
    exact h.different asset hasset other hother hne
  · intro h
    refine ⟨fun asset _ => glueName_valid _ _, fun asset _ => glueName_valid _ _, ?_⟩
    intro asset hasset other hother hne
    rw [ne_eq, hpair asset hasset other hother]
    exact h asset hasset other hother hne

instance (value : List Char) : Decidable (Kept lower value) :=
  inferInstanceAs (Decidable (_ ∧ _))

instance (value identity value' identity' : List Char) :
    Decidable (Meets lower digest value identity value' identity') :=
  inferInstanceAs (Decidable (_ ∨ _))

end Safety

section Examples

theorem digit_range : ∀ n < 10, 48 ≤ (Char.ofNat (48 + n)).toNat ∧
    (Char.ofNat (48 + n)).toNat ≤ 57 := by decide

/-- Ten digits that tell the identities of the examples apart. -/
def exampleDigest : Digest where
  text identity := Char.ofNat (48 + identity.idxOf '.' % 10) ::
    Char.ofNat (48 + identity.length % 10) :: List.replicate 8 '0'
  length identity := by simp
  digits identity c hc := by
    right
    rcases List.mem_cons.mp hc with rfl | hc
    · exact digit_range _ (Nat.mod_lt _ (by omega))
    · rcases List.mem_cons.mp hc with rfl | hc
      · exact digit_range _ (Nat.mod_lt _ (by omega))
      · rw [List.eq_of_mem_replicate hc]
        decide

def lowerAscii (text : List Char) : List Char := text.map Char.toLower

def splitLeft : RelationRef := ⟨"a_b", "c", "t", by decide, by decide, by decide⟩

def splitRight : RelationRef := ⟨"a", "b_c", "t", by decide, by decide, by decide⟩

def upperCase : RelationRef := ⟨"Analytics", "b", "t", by decide, by decide, by decide⟩

theorem identities_pair (first second : RelationRef) {identity : List Char}
    (h : identity ∈ identities {first, second}) :
    identity ∈ [databaseIdentity first, databaseIdentity second, relationIdentity first,
      relationIdentity second] := by
  simp only [identities, Set.image_pair, Set.mem_union, Set.mem_insert_iff,
    Set.mem_singleton_iff] at h
  simp only [List.mem_cons, List.not_mem_nil, or_false]
  tauto

theorem glue_names_upper_case :
    CollisionSafe lowerAscii exampleDigest "dander".toList {splitRight, upperCase} := by
  have hdigest : ∀ first ∈ [databaseIdentity splitRight, databaseIdentity upperCase,
      relationIdentity splitRight, relationIdentity upperCase],
      ∀ second ∈ [databaseIdentity splitRight, databaseIdentity upperCase,
        relationIdentity splitRight, relationIdentity upperCase],
      exampleDigest.text first = exampleDigest.text second → first = second := by decide
  have hapart : ¬ Meets lowerAscii exampleDigest
        (databaseValue "dander".toList splitRight) (databaseIdentity splitRight)
        (databaseValue "dander".toList upperCase) (databaseIdentity upperCase) ∧
      ¬ Meets lowerAscii exampleDigest
        (databaseValue "dander".toList upperCase) (databaseIdentity upperCase)
        (databaseValue "dander".toList splitRight) (databaseIdentity splitRight) := by decide
  refine (glue_names lowerAscii exampleDigest "dander".toList {splitRight, upperCase} ?_).mpr ?_
  · intro first hfirst second hsecond
    exact hdigest first (identities_pair _ _ hfirst) second (identities_pair _ _ hsecond)
  · rintro asset (rfl | rfl) other (rfl | rfl) hne ⟨hmeets, -⟩
    · exact hne rfl
    · exact hapart.1 hmeets
    · exact hapart.2 hmeets
    · exact hne rfl

/-- The parts of a database name may be split in two ways. -/
theorem split_names_collide :
    (∀ first ∈ identities {splitLeft, splitRight}, ∀ second ∈ identities {splitLeft, splitRight},
      exampleDigest.text first = exampleDigest.text second → first = second) ∧
      ¬ CollisionSafe lowerAscii exampleDigest "dander".toList {splitLeft, splitRight} := by
  have hdigest : ∀ first ∈ [databaseIdentity splitLeft, databaseIdentity splitRight,
      relationIdentity splitLeft, relationIdentity splitRight],
      ∀ second ∈ [databaseIdentity splitLeft, databaseIdentity splitRight,
        relationIdentity splitLeft, relationIdentity splitRight],
      exampleDigest.text first = exampleDigest.text second → first = second := by decide
  have hnames : databaseName lowerAscii exampleDigest "dander".toList splitLeft =
        databaseName lowerAscii exampleDigest "dander".toList splitRight ∧
      tableName lowerAscii exampleDigest splitLeft =
        tableName lowerAscii exampleDigest splitRight := by decide
  refine ⟨?_, ?_⟩
  · intro first hfirst second hsecond
    exact hdigest first (identities_pair _ _ hfirst) second (identities_pair _ _ hsecond)
  · intro h
    refine h.different splitLeft (.inl rfl) splitRight (.inr rfl) ?_ (Prod.ext hnames.1 hnames.2)
    intro heq
    exact absurd (congrArg RelationRef.catalog heq) (by decide)

end Examples

end Dander.Glue
