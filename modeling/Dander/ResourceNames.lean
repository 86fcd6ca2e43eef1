import Dander.Identifiers
import Mathlib.Data.List.DropRight
import Mathlib.Data.List.Sort
import Mathlib.Order.Lattice

/-!
# Derived resource names

A pipeline without explicit names gets a job and two service accounts named after it. A name that
is too long is cut and ends with a digest of what it would have been.
-/
namespace Dander.ResourceNames

section Names

/-- Explicit names of a pipeline. -/
structure PipelineResourceNames where
  job : Option String
  runtimeServiceAccount : Option String
  schedulerServiceAccount : Option String

structure PipelineSpec where
  resources : PipelineResourceNames

structure TerraformPipeline where
  jobName : String
  runtimeServiceAccountId : String
  schedulerServiceAccountId : String

structure DanderProject where
  pipelines : List (String × PipelineSpec)
  deployedPipelineIds : Option (List String)

def isLower (c : Char) : Bool := 97 ≤ c.toNat && c.toNat ≤ 122

/-- `^[a-z][a-z0-9_]{1,62}$` -/
def isPipelineId (text : String) : Bool :=
  match text.toList with
  | [] => false
  | first :: rest => isLower first && decide (1 ≤ rest.length) && decide (rest.length ≤ 62) &&
      rest.all fun c => isLowerOrDigit c || c = '_'

/-- `^[a-z][a-z0-9-]*[a-z0-9]$` -/
def isGcpResourceId (text : String) : Bool :=
  match text.toList with
  | [] => false
  | first :: rest => isLower first && rest.all (fun c => isLowerOrDigit c || c = '-') &&
      rest.getLast?.any isLowerOrDigit

def isJobName (text : String) : Bool := decide (text.length ≤ 63) && isGcpResourceId text

/-- `^[a-z][a-z0-9-]{4,28}[a-z0-9]$` -/
def isServiceAccountId (text : String) : Bool :=
  decide (6 ≤ text.length) && decide (text.length ≤ 30) && isGcpResourceId text

/-- `value.replace("_", "-")` -/
def dashed (value : String) : String :=
  String.ofList (value.toList.map fun c => if c = '_' then '-' else c)

/-- `value.rstrip("-")` -/
def withoutTrailingDashes (value : List Char) : List Char := value.rdropWhile fun c => c = '-'

/-- `digest` is the first eight hexadecimal digits of the SHA-256 hash. -/
def stableResourceName (digest : String → String) (stem value : String) (maxLength : ℕ) : String :=
  let candidate := stem ++ "-" ++ value
  if candidate.length ≤ maxLength then candidate
  else
    String.ofList (withoutTrailingDashes
      (candidate.toList.take (maxLength - (digest candidate).length - 1))) ++ "-" ++
        digest candidate

def jobName (digest : String → String) (pipelineId : String) : String :=
  stableResourceName digest "dander" (dashed pipelineId) 63

def runtimeAccount (digest : String → String) (pipelineId : String) : String :=
  stableResourceName digest "dander" (dashed pipelineId ++ "-run") 30

def schedulerAccount (digest : String → String) (pipelineId : String) : String :=
  stableResourceName digest "dander" (dashed pipelineId ++ "-sched") 30

/-- `explicit or derived` -/
def orDerived (explicit : Option String) (derived : String) : String :=
  match explicit with
  | none | some "" => derived
  | some name => name

def terraformPipeline (digest : String → String) (pipelineId : String) (pipeline : PipelineSpec) :
    TerraformPipeline where
  jobName := orDerived pipeline.resources.job (jobName digest pipelineId)
  runtimeServiceAccountId :=
    orDerived pipeline.resources.runtimeServiceAccount (runtimeAccount digest pipelineId)
  schedulerServiceAccountId :=
    orDerived pipeline.resources.schedulerServiceAccount (schedulerAccount digest pipelineId)

def DanderProject.selected (project : DanderProject) (pipelineId : String) : Bool :=
  match project.deployedPipelineIds with
  | none => true
  | some deployed => decide (pipelineId ∈ deployed)

def DanderProject.terraformPipelines (digest : String → String) (project : DanderProject) :
    List (String × TerraformPipeline) :=
  ((project.pipelines.insertionSort fun a b => a.1 ≤ b.1).filter fun entry =>
    project.selected entry.1).map fun entry => (entry.1, terraformPipeline digest entry.1 entry.2)

example : jobName (fun _ => "0123abcd") "orders_daily" = "dander-orders-daily" := by decide +kernel

example : runtimeAccount (fun _ => "0123abcd") "orders_of_all_the_shops" =
    "dander-orders-of-all-0123abcd" := by decide +kernel

end Names

section Shapes

variable {digest : String → String} {value : String} {maxLength : ℕ} {x y : String}

def isHexDigit (c : Char) : Bool :=
  (97 ≤ c.toNat && c.toNat ≤ 102) || (48 ≤ c.toNat && c.toNat ≤ 57)

structure HexDigests (digest : String → String) : Prop where
  length : ∀ text, (digest text).length = 8
  hex : ∀ text, ∀ c ∈ (digest text).toList, isHexDigit c = true

def stem : List Char := "dander-".toList

theorem toList_candidate (value : String) :
    ("dander" ++ "-" ++ value).toList = stem ++ value.toList := by
  rw [String.toList_append]
  rfl

theorem length_candidate (value : String) :
    ("dander" ++ "-" ++ value).length = 7 + value.length := by
  rw [← String.length_toList, toList_candidate, List.length_append, String.length_toList]
  rfl

theorem rdropWhile_append_of_not {p : Char → Bool} {first rest : List Char}
    (h : ∃ c ∈ rest, p c = false) :
    (first ++ rest).rdropWhile p = first ++ rest.rdropWhile p := by
  obtain ⟨c, hc, hp⟩ := h
  have hkept : (rest.reverse.dropWhile p).isEmpty = false := by
    rw [Bool.eq_false_iff, ne_eq, List.isEmpty_iff]
    intro hempty
    rw [List.dropWhile_eq_nil_iff] at hempty
    rw [hempty c (List.mem_reverse.mpr hc)] at hp
    cases hp
  simp only [List.rdropWhile, List.reverse_append, List.dropWhile_append, hkept]
  simp

theorem name_of_short (h : 7 + value.length ≤ maxLength) :
    (stableResourceName digest "dander" value maxLength).toList = stem ++ value.toList := by
  simp only [stableResourceName, length_candidate, if_pos h, toList_candidate]

/-- The value starts with a letter, so the cut leaves the stem. -/
theorem name_of_long (hdigest : HexDigests digest) (hmax : 17 ≤ maxLength)
    (h : maxLength < 7 + value.length) (hletter : ∀ c, value.toList.head? = some c → c ≠ '-') :
    (stableResourceName digest "dander" value maxLength).toList =
      stem ++ withoutTrailingDashes (value.toList.take (maxLength - 16)) ++
        '-' :: (digest ("dander" ++ "-" ++ value)).toList := by
  have hcut : maxLength - 8 - 1 = 7 + (maxLength - 16) := by omega
  have htake : (stem ++ value.toList).take (7 + (maxLength - 16)) =
      stem ++ value.toList.take (maxLength - 16) :=
    @List.take_length_add_append _ stem value.toList (maxLength - 16)
  have hdash : withoutTrailingDashes (stem ++ value.toList.take (maxLength - 16)) =
      stem ++ withoutTrailingDashes (value.toList.take (maxLength - 16)) := by
    apply rdropWhile_append_of_not
    cases hvalue : value.toList with
    | nil =>
      rw [← String.length_toList, hvalue, List.length_nil] at h
      omega
    | cons first rest =>
      rw [hvalue] at hletter
      obtain ⟨more, hmore⟩ : ∃ more, maxLength - 16 = more + 1 := ⟨maxLength - 17, by omega⟩
      rw [hmore, List.take_succ_cons]
      exact ⟨first, List.mem_cons_self, by simpa using hletter first rfl⟩
  simp only [stableResourceName, length_candidate, if_neg (not_le.mpr h), hdigest.length, hcut,
    toList_candidate, htake, hdash]
  rw [String.toList_append, String.toList_append, String.toList_ofList, List.append_assoc]
  rfl

theorem digest_suffix (hdigest : HexDigests digest) (hmax : 17 ≤ maxLength)
    (h : maxLength < 7 + value.length) (hletter : ∀ c, value.toList.head? = some c → c ≠ '-') :
    (digest ("dander" ++ "-" ++ value)).toList <:+
      (stableResourceName digest "dander" value maxLength).toList := by
  rw [name_of_long hdigest hmax h hletter]
  exact (List.suffix_cons _ _).trans (List.suffix_append _ _)

/-- Two cut names are the same only if the digests are, and a name that was not cut is none of them
if its end has a letter that no digest has. -/
theorem digest_eq_of_suffix {name : List Char} (hdigest : HexDigests digest)
    (hx : (digest x).toList <:+ name) (hy : (digest y).toList <:+ name) : digest x = digest y := by
  have hlength : ∀ text, (digest text).toList.length = 8 := by
    intro text
    rw [String.length_toList, hdigest.length]
  have hsuffix := List.suffix_of_suffix_length_le hx hy (by rw [hlength, hlength])
  exact String.toList_inj.mp (hsuffix.eq_of_length (by rw [hlength, hlength]))

theorem not_hex_suffix {name ending : List Char} (hdigest : HexDigests digest)
    (hx : (digest x).toList <:+ name) (hending : ending <:+ name) (hshort : ending.length ≤ 8)
    (hletter : ∃ c ∈ ending, isHexDigit c = false) : False := by
  have hlength : (digest x).toList.length = 8 := by rw [String.length_toList, hdigest.length]
  obtain ⟨c, hc, hhex⟩ := hletter
  have hsuffix := List.suffix_of_suffix_length_le hending hx (by omega)
  rw [hdigest.hex x c (hsuffix.subset hc)] at hhex
  cases hhex

theorem toList_dashed (text : String) :
    (dashed text).toList = text.toList.map fun c => if c = '_' then '-' else c :=
  String.toList_ofList

theorem length_dashed (text : String) : (dashed text).length = text.length := by
  rw [← String.length_toList, toList_dashed, List.length_map, String.length_toList]

/-- A pipeline id is a letter and at least one more letter, digit or underscore. -/
theorem isPipelineId_iff : isPipelineId x = true ↔ ∃ first rest, x.toList = first :: rest ∧
    isLower first = true ∧ 1 ≤ rest.length ∧ rest.length ≤ 62 ∧
      ∀ c ∈ rest, isLowerOrDigit c = true ∨ c = '_' := by
  unfold isPipelineId
  cases x.toList with
  | nil => simp
  | cons first rest =>
    simp only [Bool.and_eq_true, List.all_eq_true, Bool.or_eq_true, decide_eq_true_eq,
      List.cons.injEq, and_assoc]
    constructor
    · intro h
      exact ⟨first, rest, rfl, rfl, h⟩
    · rintro ⟨_, _, rfl, rfl, h⟩
      exact h

theorem ne_of_isLowerOrDigit {c : Char} (h : isLowerOrDigit c = true) : c ≠ '-' ∧ c ≠ '_' := by
  constructor <;> (rintro rfl; revert h; decide)

theorem isLowerOrDigit_of_isLower {c : Char} (h : isLower c = true) : isLowerOrDigit c = true := by
  unfold isLowerOrDigit
  unfold isLower at h
  rw [h]
  rfl

theorem isLowerOrDigit_of_isHexDigit {c : Char} (h : isHexDigit c = true) :
    isLowerOrDigit c = true := by
  simp only [isHexDigit, isLowerOrDigit, Bool.or_eq_true, Bool.and_eq_true,
    decide_eq_true_eq] at h ⊢
  omega

theorem mem_pipelineId (h : isPipelineId x = true) {c : Char} (hc : c ∈ x.toList) :
    isLowerOrDigit c = true ∨ c = '_' := by
  obtain ⟨first, rest, hx, hfirst, -, -, hrest⟩ := isPipelineId_iff.mp h
  rw [hx] at hc
  rcases List.mem_cons.mp hc with rfl | hc
  · exact .inl (isLowerOrDigit_of_isLower hfirst)
  · exact hrest c hc

theorem length_pipelineId (h : isPipelineId x = true) : 2 ≤ x.length ∧ x.length ≤ 63 := by
  obtain ⟨first, rest, hx, -, hlow, hhigh, -⟩ := isPipelineId_iff.mp h
  rw [← String.length_toList, hx, List.length_cons]
  omega

/-- Ids have no dashes, so none is lost. -/
theorem dashed_injective (hx : isPipelineId x = true) (hy : isPipelineId y = true)
    (h : dashed x = dashed y) : x = y := by
  have hback : ∀ {text : String}, isPipelineId text = true →
      (dashed text).toList.map (fun c => if c = '-' then '_' else c) = text.toList := by
    intro text htext
    rw [toList_dashed, List.map_map]
    conv_rhs => rw [← List.map_id' text.toList]
    apply List.map_congr_left
    intro c hc
    rcases mem_pipelineId htext hc with hplain | rfl
    · obtain ⟨hdash, hunderscore⟩ := ne_of_isLowerOrDigit hplain
      simp [hdash, hunderscore]
    · rfl
  rw [← String.toList_inj, ← hback hx, ← hback hy, h]

theorem dashed_letter (h : isPipelineId x = true) (tail : String) :
    ∀ c, (dashed x ++ tail).toList.head? = some c → c ≠ '-' := by
  obtain ⟨first, rest, hx, hfirst, -⟩ := isPipelineId_iff.mp h
  obtain ⟨hdash, hunderscore⟩ := ne_of_isLowerOrDigit (isLowerOrDigit_of_isLower hfirst)
  intro c hc
  rw [String.toList_append, toList_dashed, hx, List.map_cons, if_neg hunderscore,
    List.cons_append, List.head?_cons, Option.some.injEq] at hc
  rwa [← hc]

end Shapes

section Accounts

variable {digest : String → String} {x y tail other : String}

def account (digest : String → String) (tail pipelineId : String) : String :=
  stableResourceName digest "dander" (dashed pipelineId ++ tail) 30

/-- What a name is before it is cut. -/
def candidate (tail pipelineId : String) : String := "dander" ++ "-" ++ (dashed pipelineId ++ tail)

def accountTails : List String := ["-run", "-sched"]

/-- The digests of the names of these pipelines tell them apart. -/
def DistinctDigests (digest : String → String) (ids : List String) : Prop :=
  ∀ x ∈ ids, ∀ y ∈ ids, ∀ tail ∈ "" :: accountTails, ∀ other ∈ "" :: accountTails,
    digest (candidate tail x) = digest (candidate other y) → candidate tail x = candidate other y

theorem candidate_injective (hx : isPipelineId x = true) (hy : isPipelineId y = true)
    (htail : tail ∈ accountTails) (hother : other ∈ accountTails)
    (h : candidate tail x = candidate other y) : x = y ∧ tail = other := by
  have hvalues : (dashed x).toList ++ tail.toList = (dashed y).toList ++ other.toList := by
    have hlists := congrArg String.toList h
    unfold candidate at hlists
    rw [toList_candidate, toList_candidate] at hlists
    simpa [String.toList_append] using List.append_cancel_left hlists
  have hlast := congrArg List.getLast? hvalues
  simp only [accountTails, List.mem_cons, List.not_mem_nil, or_false] at htail hother
  rcases htail with rfl | rfl <;> rcases hother with rfl | rfl
  · exact ⟨dashed_injective hx hy (String.toList_inj.mp (List.append_cancel_right hvalues)), rfl⟩
  · simp at hlast
  · simp at hlast
  · exact ⟨dashed_injective hx hy (String.toList_inj.mp (List.append_cancel_right hvalues)), rfl⟩

theorem suffix_of_short (htail : tail ∈ accountTails)
    (h : 7 + (dashed x ++ tail).length ≤ 30) :
    tail.toList <:+ (account digest tail x).toList ∧ tail.toList.length ≤ 8 ∧
      ∃ c ∈ tail.toList, isHexDigit c = false := by
  refine ⟨?_, ?_, ?_⟩
  · rw [account, name_of_short h, String.toList_append]
    exact (List.suffix_append _ _).trans (List.suffix_append _ _)
  · simp only [accountTails, List.mem_cons, List.not_mem_nil, or_false] at htail
    rcases htail with rfl | rfl <;> decide
  · simp only [accountTails, List.mem_cons, List.not_mem_nil, or_false] at htail
    rcases htail with rfl | rfl
    · exact ⟨'n', by decide, by decide⟩
    · exact ⟨'s', by decide, by decide⟩

/-- Accounts of different pipelines or of different kinds have different names. -/
theorem account_injective {ids : List String} (hdigest : HexDigests digest)
    (hdistinct : DistinctDigests digest ids) (hmemX : x ∈ ids) (hmemY : y ∈ ids)
    (hx : isPipelineId x = true) (hy : isPipelineId y = true) (htail : tail ∈ accountTails)
    (hother : other ∈ accountTails) (h : account digest tail x = account digest other y) :
    x = y ∧ tail = other := by
  have hsuffix : ∀ {text ending : String}, isPipelineId text = true →
      30 < 7 + (dashed text ++ ending).length →
        (digest (candidate ending text)).toList <:+ (account digest ending text).toList := by
    intro text ending htext hlong
    exact digest_suffix hdigest (by omega) hlong (dashed_letter htext ending)
  by_cases hshortX : 7 + (dashed x ++ tail).length ≤ 30
  · by_cases hshortY : 7 + (dashed y ++ other).length ≤ 30
    · apply candidate_injective hx hy htail hother
      rw [← String.toList_inj, candidate, candidate, toList_candidate, toList_candidate,
        ← name_of_short hshortX, ← name_of_short hshortY]
      exact congrArg String.toList h
    · obtain ⟨hending, hlength, hletter⟩ := suffix_of_short htail hshortX
      rw [h] at hending
      exact (not_hex_suffix hdigest (hsuffix hy (not_le.mp hshortY)) hending hlength hletter).elim
  · have hcutX := hsuffix hx (not_le.mp hshortX)
    by_cases hshortY : 7 + (dashed y ++ other).length ≤ 30
    · have hshort := @suffix_of_short digest
      obtain ⟨hending, hlength, hletter⟩ := hshort hother hshortY
      rw [← h] at hending
      exact (not_hex_suffix hdigest hcutX hending hlength hletter).elim
    · have hcutY := hsuffix hy (not_le.mp hshortY)
      rw [h] at hcutX
      refine candidate_injective hx hy htail hother (hdistinct x hmemX y hmemY tail
        (List.mem_cons_of_mem _ htail) other (List.mem_cons_of_mem _ hother) ?_)
      exact digest_eq_of_suffix hdigest hcutX hcutY

end Accounts

section Jobs

variable {digest : String → String} {x y : String} {ids : List String}

/-- The id spells what the name of a longer one is cut to. -/
def SpellsCut (digest : String → String) (x y : String) : Prop :=
  x.length ≤ 56 ∧ 56 < y.length ∧ (dashed x).toList =
    withoutTrailingDashes ((dashed y).toList.take 47) ++ '-' :: (digest (candidate "" y)).toList

theorem dashed_append_empty (text : String) : dashed text ++ "" = dashed text := by
  rw [← String.toList_inj, String.toList_append]
  exact List.append_nil _

theorem job_of_short (h : x.length ≤ 56) :
    (jobName digest x).toList = stem ++ (dashed x).toList :=
  name_of_short (by rw [length_dashed]; omega)

theorem job_of_long (hdigest : HexDigests digest) (hx : isPipelineId x = true)
    (h : 56 < x.length) : (jobName digest x).toList =
      stem ++ withoutTrailingDashes ((dashed x).toList.take 47) ++
        '-' :: (digest (candidate "" x)).toList := by
  have hletter := dashed_letter hx ""
  rw [dashed_append_empty] at hletter
  rw [candidate, dashed_append_empty]
  exact name_of_long hdigest (by omega) (by rw [length_dashed]; omega) hletter

/-- Jobs of different pipelines have one name just where one id spells the other's cut name. -/
theorem job_eq_iff (hdigest : HexDigests digest) (hdistinct : DistinctDigests digest ids)
    (hmemX : x ∈ ids) (hmemY : y ∈ ids) (hx : isPipelineId x = true) (hy : isPipelineId y = true)
    (hne : x ≠ y) : jobName digest x = jobName digest y ↔
      SpellsCut digest x y ∨ SpellsCut digest y x := by
  have hspells : ∀ {short long : String}, isPipelineId long = true → short.length ≤ 56 →
      56 < long.length → (jobName digest short = jobName digest long ↔
        SpellsCut digest short long) := by
    intro short long hlongId hshort hlong
    rw [← String.toList_inj, job_of_short hshort, job_of_long hdigest hlongId hlong,
      List.append_assoc, List.append_right_inj]
    exact ⟨fun h => ⟨hshort, hlong, h⟩, fun h => h.2.2⟩
  by_cases hshortX : x.length ≤ 56
  · by_cases hshortY : y.length ≤ 56
    · constructor
      · intro h
        rw [← String.toList_inj, job_of_short hshortX, job_of_short hshortY,
          List.append_right_inj, String.toList_inj] at h
        exact absurd (dashed_injective hx hy h) hne
      · rintro (⟨-, hlong, -⟩ | ⟨-, hlong, -⟩) <;> omega
    · rw [hspells hy hshortX (not_le.mp hshortY)]
      refine ⟨.inl, ?_⟩
      rintro (h | ⟨hshort, -, -⟩)
      · exact h
      · omega
  · by_cases hshortY : y.length ≤ 56
    · rw [eq_comm, hspells hx hshortY (not_le.mp hshortX)]
      refine ⟨.inr, ?_⟩
      rintro (⟨hshort, -, -⟩ | h)
      · omega
      · exact h
    · constructor
      · intro h
        have hcut : ∀ {text : String}, isPipelineId text = true → 56 < text.length →
            (digest (candidate "" text)).toList <:+ (jobName digest text).toList := by
          intro text htext hlong
          rw [job_of_long hdigest htext hlong]
          exact (List.suffix_cons _ _).trans (List.suffix_append _ _)
        have hfirst := hcut hx (not_le.mp hshortX)
        rw [h] at hfirst
        have hdigests := digest_eq_of_suffix hdigest hfirst (hcut hy (not_le.mp hshortY))
        have hcandidates := hdistinct x hmemX y hmemY "" List.mem_cons_self "" List.mem_cons_self
          hdigests
        unfold candidate at hcandidates
        rw [← String.toList_inj, toList_candidate, toList_candidate, List.append_right_inj,
          String.toList_inj, dashed_append_empty, dashed_append_empty] at hcandidates
        exact absurd (dashed_injective hx hy hcandidates) hne
      · rintro (⟨hshort, -, -⟩ | ⟨hshort, -, -⟩) <;> omega

end Jobs

section Contracts

variable {digest : String → String} {x tail : String}

def Allowed (chars : List Char) : Prop := ∀ c ∈ chars, isLowerOrDigit c = true ∨ c = '-'

theorem allowed_of_all {chars : List Char}
    (h : chars.all (fun c => isLowerOrDigit c || c = '-') = true) : Allowed chars := by
  intro c hc
  simpa using List.all_eq_true.mp h c hc

theorem isGcpResourceId_iff {text : String} {rest : List Char} {last : Char}
    (htext : text.toList = stem ++ rest) (hrest : Allowed rest)
    (hlast : rest.getLast? = some last) :
    isGcpResourceId text = true ↔ isLowerOrDigit last = true := by
  have hlist : text.toList = 'd' :: ("ander-".toList ++ rest) := htext
  have hletters : Allowed "ander-".toList := allowed_of_all (by decide)
  simp only [isGcpResourceId, hlist, List.getLast?_append, hlast, Option.some_or,
    Option.any_some, Bool.and_eq_true, List.all_eq_true, Bool.or_eq_true, decide_eq_true_eq]
  constructor
  · exact fun h => h.2
  · intro h
    refine ⟨⟨by decide, ?_⟩, h⟩
    intro c hc
    rcases List.mem_append.mp hc with hc | hc
    · exact hletters c hc
    · exact hrest c hc

theorem allowed_dashed (hx : isPipelineId x = true) : Allowed (dashed x).toList := by
  intro c hc
  rw [toList_dashed] at hc
  obtain ⟨old, hold, rfl⟩ := List.mem_map.mp hc
  rcases mem_pipelineId hx hold with hplain | rfl
  · rw [if_neg (ne_of_isLowerOrDigit hplain).2]
    exact .inl hplain
  · exact .inr rfl

theorem Allowed.append {first second : List Char} (hfirst : Allowed first)
    (hsecond : Allowed second) : Allowed (first ++ second) := by
  intro c hc
  rcases List.mem_append.mp hc with hc | hc
  · exact hfirst c hc
  · exact hsecond c hc

theorem Allowed.cut {chars : List Char} (h : Allowed chars) (count : ℕ) :
    Allowed (withoutTrailingDashes (chars.take count)) := by
  intro c hc
  have hprefix := List.rdropWhile_prefix (fun c => decide (c = '-')) (l := chars.take count)
  exact h c (List.mem_of_mem_take ( hprefix.subset hc))

theorem length_cut_le (chars : List Char) (count : ℕ) :
    (withoutTrailingDashes (chars.take count)).length ≤ count :=
  (List.rdropWhile_prefix _ (chars.take count)).length_le.trans (List.length_take_le _ _)

theorem digest_ending (hdigest : HexDigests digest) (text : String) :
    Allowed ('-' :: (digest text).toList) ∧ ∃ last,
      ('-' :: (digest text).toList).getLast? = some last ∧ isLowerOrDigit last = true := by
  have hhex : ∀ c ∈ (digest text).toList, isLowerOrDigit c = true :=
    fun c hc => isLowerOrDigit_of_isHexDigit (hdigest.hex text c hc)
  constructor
  · intro c hc
    rcases List.mem_cons.mp hc with rfl | hc
    · exact .inr rfl
    · exact .inl (hhex c hc)
  · have hne : (digest text).toList ≠ [] := by
      intro hempty
      have hlength := hdigest.length text
      rw [← String.length_toList, hempty] at hlength
      cases hlength
    refine ⟨(digest text).toList.getLast hne, ?_, hhex _ (List.getLast_mem hne)⟩
    rw [List.getLast?_cons, List.getLast?_eq_some_getLast hne]
    rfl

theorem isServiceAccountId_account (hdigest : HexDigests digest) (hx : isPipelineId x = true)
    (htail : tail ∈ accountTails) : isServiceAccountId (account digest tail x) = true := by
  have htailChars : Allowed tail.toList ∧ (∃ last, tail.toList.getLast? = some last ∧
      isLowerOrDigit last = true) ∧ 4 ≤ tail.toList.length := by
    simp only [accountTails, List.mem_cons, List.not_mem_nil, or_false] at htail
    rcases htail with rfl | rfl
    · exact ⟨allowed_of_all (by decide), ⟨'n', rfl, rfl⟩, by decide⟩
    · exact ⟨allowed_of_all (by decide), ⟨'d', rfl, rfl⟩, by decide⟩
  obtain ⟨hallowed, ⟨last, hlast, hplain⟩, hlength⟩ := htailChars
  have hstem : stem.length = 7 := rfl
  have hname : ∀ rest : List Char, (account digest tail x).toList = stem ++ rest → Allowed rest →
      (∃ last, rest.getLast? = some last ∧ isLowerOrDigit last = true) → rest.length ≤ 23 →
        isServiceAccountId (account digest tail x) = true := by
    rintro rest hrest hchars ⟨last, hlast, hplain⟩ hlong
    have hsize := congrArg List.length hrest
    rw [String.length_toList, List.length_append, hstem] at hsize
    simp only [isServiceAccountId, Bool.and_eq_true, decide_eq_true_eq]
    exact ⟨⟨by omega, by omega⟩, (isGcpResourceId_iff hrest hchars hlast).mpr hplain⟩
  have hlengthX := (length_pipelineId hx).1
  by_cases hshort : 7 + (dashed x ++ tail).length ≤ 30
  · refine hname _ (name_of_short hshort) ?_ ?_ ?_
    · rw [String.toList_append]
      exact (allowed_dashed hx).append hallowed
    · refine ⟨last, ?_, hplain⟩
      rw [String.toList_append, List.getLast?_append, hlast, Option.some_or]
    · rw [String.length_toList]
      omega
  · have hlong := name_of_long hdigest (by omega) (not_le.mp hshort) (dashed_letter hx tail)
    rw [List.append_assoc] at hlong
    obtain ⟨hdigestChars, last', hlast', hplain'⟩ :=
      digest_ending hdigest ("dander" ++ "-" ++ (dashed x ++ tail))
    have hvalue : Allowed (dashed x ++ tail).toList := by
      rw [String.toList_append]
      exact (allowed_dashed hx).append hallowed
    refine hname _ hlong ((hvalue.cut _).append hdigestChars) ?_ ?_
    · refine ⟨last', ?_, hplain'⟩
      rw [List.getLast?_append, hlast', Option.some_or]
    · have hcut := length_cut_le (dashed x ++ tail).toList (30 - 16)
      have hdigits := hdigest.length ("dander" ++ "-" ++ (dashed x ++ tail))
      rw [List.length_append, List.length_cons, String.length_toList]
      omega

/-- A job that was not cut is named like its pipeline, and ends like it. -/
theorem isJobName_jobName (hdigest : HexDigests digest) (hx : isPipelineId x = true) :
    isJobName (jobName digest x) = true ↔ (x.length ≤ 56 → x.toList.getLast? ≠ some '_') := by
  have hstem : stem.length = 7 := rfl
  have hname : ∀ (rest : List Char) (last : Char), (jobName digest x).toList = stem ++ rest →
      Allowed rest → rest.getLast? = some last → rest.length ≤ 56 →
        (isJobName (jobName digest x) = true ↔ isLowerOrDigit last = true) := by
    intro rest last hrest hchars hlast hlong
    have hsize := congrArg List.length hrest
    rw [String.length_toList, List.length_append, hstem] at hsize
    rw [isJobName, Bool.and_eq_true, isGcpResourceId_iff hrest hchars hlast, decide_eq_true_eq]
    exact ⟨fun h => h.2, fun h => ⟨by omega, h⟩⟩
  by_cases hshort : x.length ≤ 56
  · obtain ⟨first, others, hlist, -⟩ := isPipelineId_iff.mp hx
    have hne : x.toList ≠ [] := by
      rw [hlist]
      exact List.cons_ne_nil _ _
    have hgetLast := List.getLast?_eq_some_getLast hne
    have hmem := List.getLast_mem hne
    generalize x.toList.getLast hne = last at hgetLast hmem
    have hlast : (dashed x).toList.getLast? = some (if last = '_' then '-' else last) := by
      rw [toList_dashed, List.getLast?_map, hgetLast]
      rfl
    rw [hname _ _ (job_of_short hshort) (allowed_dashed hx) hlast
      (by rw [String.length_toList, length_dashed]; exact hshort), hgetLast]
    rcases mem_pipelineId hx hmem with hplain | rfl
    · simp [(ne_of_isLowerOrDigit hplain).2, hplain]
    · simp only [if_true, hshort, true_implies, ne_eq, not_true]
      decide
  · have hlong := job_of_long hdigest hx (not_le.mp hshort)
    rw [List.append_assoc] at hlong
    obtain ⟨hdigestChars, last, hlast, hplain⟩ := digest_ending hdigest (candidate "" x)
    have hending : (withoutTrailingDashes ((dashed x).toList.take 47) ++
        '-' :: (digest (candidate "" x)).toList).getLast? = some last := by
      rw [List.getLast?_append, hlast, Option.some_or]
    have hcut := length_cut_le (dashed x).toList 47
    have hdigits := hdigest.length (candidate "" x)
    rw [hname _ _ hlong (((allowed_dashed hx).cut _).append hdigestChars) hending
      (by rw [List.length_append, List.length_cons, String.length_toList]; omega)]
    simp [hplain, hshort]

end Contracts

section Projects

variable {digest : String → String} {project : DanderProject}

/-- The ids of the pipelines of a deployment. -/
def DanderProject.deployed (project : DanderProject) : List String :=
  ((project.pipelines.insertionSort fun a b => a.1 ≤ b.1).filter fun entry =>
    project.selected entry.1).map Prod.fst

/-- Ids are valid and, as keys, different; no pipeline names its resources. -/
structure DerivesNames (project : DanderProject) : Prop where
  nodup : (project.pipelines.map Prod.fst).Nodup
  valid : ∀ entry ∈ project.pipelines, isPipelineId entry.1 = true
  implicit : ∀ entry ∈ project.pipelines, entry.2.resources = ⟨none, none, none⟩

structure SoundNames (pipelines : List (String × TerraformPipeline)) : Prop where
  jobs : (pipelines.map fun entry => entry.2.jobName).Nodup
  accounts : (pipelines.map (fun entry => entry.2.runtimeServiceAccountId) ++
    pipelines.map fun entry => entry.2.schedulerServiceAccountId).Nodup
  jobNames : ∀ entry ∈ pipelines, isJobName entry.2.jobName = true
  accountIds : ∀ entry ∈ pipelines, isServiceAccountId entry.2.runtimeServiceAccountId = true ∧
    isServiceAccountId entry.2.schedulerServiceAccountId = true

/-- No id that is kept whole ends with an underscore or spells what another one is cut to. -/
structure ClearIds (digest : String → String) (ids : List String) : Prop where
  endings : ∀ x ∈ ids, x.length ≤ 56 → x.toList.getLast? ≠ some '_'
  spellings : ∀ x ∈ ids, ∀ y ∈ ids, ¬ SpellsCut digest x y

/-- The names of a pipeline that names no resources. -/
def derivedPipeline (digest : String → String) (id : String) : String × TerraformPipeline :=
  (id, ⟨jobName digest id, runtimeAccount digest id, schedulerAccount digest id⟩)

@[simp] theorem derived_job (id : String) :
    (derivedPipeline digest id).2.jobName = jobName digest id := by
  rw [derivedPipeline]

@[simp] theorem derived_runtime (id : String) :
    (derivedPipeline digest id).2.runtimeServiceAccountId = runtimeAccount digest id := by
  rw [derivedPipeline]

@[simp] theorem derived_scheduler (id : String) :
    (derivedPipeline digest id).2.schedulerServiceAccountId = schedulerAccount digest id := by
  rw [derivedPipeline]

theorem terraformPipelines_eq (h : DerivesNames project) :
    project.terraformPipelines digest = project.deployed.map (derivedPipeline digest) := by
  unfold DanderProject.terraformPipelines DanderProject.deployed
  rw [List.map_map]
  apply List.map_congr_left
  intro entry hentry
  have hmem := (List.perm_insertionSort _ _).mem_iff.mp (List.mem_of_mem_filter hentry)
  have himplicit := h.implicit entry hmem
  simp only [Function.comp_apply, derivedPipeline, terraformPipeline, himplicit, orDerived]

theorem DerivesNames.nodup_deployed (h : DerivesNames project) : project.deployed.Nodup := by
  have hsorted := ((List.perm_insertionSort (fun a b : String × PipelineSpec => a.1 ≤ b.1)
    project.pipelines).map Prod.fst).nodup_iff.mpr h.nodup
  exact hsorted.sublist (List.filter_sublist.map Prod.fst)

theorem DerivesNames.valid_deployed (h : DerivesNames project) {id : String}
    (hid : id ∈ project.deployed) : isPipelineId id = true := by
  obtain ⟨entry, hentry, rfl⟩ := List.mem_map.mp hid
  exact h.valid entry ((List.perm_insertionSort _ _).mem_iff.mp (List.mem_of_mem_filter hentry))

theorem run_mem : "-run" ∈ accountTails := List.mem_cons_self

theorem sched_mem : "-sched" ∈ accountTails := List.mem_cons_of_mem _ List.mem_cons_self

theorem runtimeAccount_eq (id : String) : runtimeAccount digest id = account digest "-run" id := rfl

theorem schedulerAccount_eq (id : String) :
    schedulerAccount digest id = account digest "-sched" id := rfl

theorem nodup_accounts {ids : List String} (hnodup : ids.Nodup)
    (hvalid : ∀ id ∈ ids, isPipelineId id = true) (hdigest : HexDigests digest)
    (hdistinct : DistinctDigests digest ids) :
    (ids.map (runtimeAccount digest) ++ ids.map (schedulerAccount digest)).Nodup := by
  have hsame : ∀ {tail other : String}, tail ∈ accountTails → other ∈ accountTails →
      ∀ x ∈ ids, ∀ y ∈ ids, account digest tail x = account digest other y →
        x = y ∧ tail = other := fun htail hother x hx y hy =>
    account_injective hdigest hdistinct hx hy (hvalid x hx) (hvalid y hy) htail hother
  refine List.Nodup.append (List.Nodup.map_on ?_ hnodup) (List.Nodup.map_on ?_ hnodup) ?_
  · intro x hx y hy hequal
    rw [runtimeAccount_eq, runtimeAccount_eq] at hequal
    exact (hsame run_mem run_mem x hx y hy hequal).1
  · intro x hx y hy hequal
    rw [schedulerAccount_eq, schedulerAccount_eq] at hequal
    exact (hsame sched_mem sched_mem x hx y hy hequal).1
  · intro name hfirst hsecond
    obtain ⟨x, hx, rfl⟩ := List.mem_map.mp hfirst
    obtain ⟨y, hy, hequal⟩ := List.mem_map.mp hsecond
    rw [runtimeAccount_eq, schedulerAccount_eq] at hequal
    have htails := (hsame sched_mem run_mem y hy x hx hequal).2
    revert htails
    decide

theorem nodup_jobs_iff {ids : List String} (hnodup : ids.Nodup)
    (hvalid : ∀ id ∈ ids, isPipelineId id = true) (hdigest : HexDigests digest)
    (hdistinct : DistinctDigests digest ids) :
    (ids.map (jobName digest)).Nodup ↔ ∀ x ∈ ids, ∀ y ∈ ids, ¬ SpellsCut digest x y := by
  have hequal : ∀ x ∈ ids, ∀ y ∈ ids, x ≠ y → (jobName digest x = jobName digest y ↔
      SpellsCut digest x y ∨ SpellsCut digest y x) := fun x hx y hy hne =>
    job_eq_iff hdigest hdistinct hx hy (hvalid x hx) (hvalid y hy) hne
  constructor
  · intro hnames x hx y hy hspells
    have hne : x ≠ y := by
      rintro rfl
      exact absurd hspells.1 (not_le.mpr hspells.2.1)
    exact hne (List.inj_on_of_nodup_map hnames hx hy ((hequal x hx y hy hne).mpr (.inl hspells)))
  · intro hclear
    refine List.Nodup.map_on ?_ hnodup
    intro x hx y hy hname
    by_contra hne
    rcases (hequal x hx y hy hne).mp hname with hspells | hspells
    · exact hclear x hx y hy hspells
    · exact hclear y hy x hx hspells

theorem soundNames_derived {ids : List String} :
    SoundNames (ids.map (derivedPipeline digest)) ↔
      (ids.map (jobName digest)).Nodup ∧
      (ids.map (runtimeAccount digest) ++ ids.map (schedulerAccount digest)).Nodup ∧
      (∀ id ∈ ids, isJobName (jobName digest id) = true) ∧
      ∀ id ∈ ids, isServiceAccountId (runtimeAccount digest id) = true ∧
        isServiceAccountId (schedulerAccount digest id) = true := by
  have hforall : ∀ P : String × TerraformPipeline → Prop,
      (∀ entry ∈ ids.map (derivedPipeline digest), P entry) ↔
        ∀ id ∈ ids, P (derivedPipeline digest id) := fun P => List.forall_mem_map
  constructor
  · intro h
    have hjobs := h.jobs
    have haccounts := h.accounts
    have hjobNames := (hforall _).mp h.jobNames
    have haccountIds := (hforall _).mp h.accountIds
    simp only [List.map_map, Function.comp_def, derived_job, derived_runtime,
      derived_scheduler] at hjobs haccounts hjobNames haccountIds
    exact ⟨hjobs, haccounts, hjobNames, haccountIds⟩
  · rintro ⟨hjobs, haccounts, hjobNames, haccountIds⟩
    constructor
    · simpa only [List.map_map, Function.comp_def, derived_job] using hjobs
    · simpa only [List.map_map, Function.comp_def, derived_runtime,
        derived_scheduler] using haccounts
    · rw [hforall]
      simpa only [derived_job] using hjobNames
    · rw [hforall]
      simpa only [derived_runtime, derived_scheduler] using haccountIds

/-- A project of pipelines that name no resources. -/
def projectOf (ids : List String) : DanderProject :=
  ⟨ids.map fun id => (id, ⟨⟨none, none, none⟩⟩), none⟩

/-- A digest by the length of the text, and what tells some names apart. -/
def exampleDigest (text : String) : String :=
  if text.length = 17 then "0000000a" else if text.length = 19 then "0000000b" else "0000000c"

end Projects

end Dander.ResourceNames
