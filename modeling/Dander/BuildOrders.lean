import Dander.TransformProjects

/-!
# What a build order covers

A loaded project knows exactly the references its templates write in the documented
form. An order of a selection has each model the selection needs, once, after the
models it refers to.
-/
namespace Dander.Transform

open Concurrency (isSegment)
open DepthFirst (Search)
open Execution Relation

section Loading

variable {relations : Relations} {project : TransformProject} {name reference : String}
  {model : TransformModel}

theorem mem_names : name ∈ relations.names ↔ ∃ model ∈ relations.models, model.name = name := by
  simp [Relations.names]

theorem model?_eq_some (h : relations.model? name = some model) :
    model ∈ relations.models ∧ model.name = name :=
  ⟨List.mem_of_find?_eq_some h, by simpa using List.find?_some h⟩

theorem isSome_model?_iff : (relations.model? name).isSome = true ↔ name ∈ relations.names := by
  rw [mem_names]
  simp [Relations.model?]

theorem model?_name (hunique : relations.names.Nodup) (hmodel : model ∈ relations.models) :
    relations.model? model.name = some model := by
  have hsome : (relations.model? model.name).isSome = true :=
    isSome_model?_iff.mpr (mem_names.mpr ⟨model, hmodel, rfl⟩)
  obtain ⟨found, hfound⟩ := Option.isSome_iff_exists.mp hsome
  obtain ⟨hmem, hname⟩ := model?_eq_some hfound
  rw [hfound, List.inj_on_of_nodup_map hunique hmem hmodel hname]

/-- A reference that resolves is an identifier. -/
theorem isSegment_of_relationRefForRef {relation : Fence.RelationRef}
    (h : relations.relationRefForRef reference = .ok relation) :
    isSegment (fun _ => false) reference.toList = true := by
  unfold Relations.relationRefForRef at h
  split at h
  next model hmodel =>
    rw [← (model?_eq_some hmodel).2]
    exact model.metadata.identifier
  next =>
    split at h
    next table htable =>
      split at h
      next hvalid =>
        obtain ⟨found, hfound, hsame⟩ := List.dropPrefix?_eq_some_iff.mp htable
        rw [hfound, eq_of_beq hsame]
        cases table with
        | nil => simp [isSegment] at hvalid
        | cons first rest =>
          simp only [isSegment, Bool.and_eq_true, List.all_eq_true] at hvalid
          simp only [rawPrefix, isSegment, List.cons_append, List.nil_append, Bool.and_eq_true,
            List.all_eq_true, List.forall_mem_cons]
          refine ⟨by decide, by decide, by decide, by decide, ?_, hvalid.2⟩
          have hfirst := hvalid.1
          simp only [Concurrency.isLetter, Bool.or_eq_true] at hfirst
          simp only [isAlphanumeric, isLowerOrDigit, Bool.or_eq_true]
          tauto
      next => cases h
    next => cases h

theorem isSegment_of_mem_refs (hmodel : model ∈ project.models) (href : reference ∈ model.refs) :
    isSegment (fun _ => false) reference.toList = true := by
  have hall := forM_eq_ok.mp project.resolved model hmodel
  have hone := forM_eq_ok.mp hall reference href
  obtain ⟨relation, hrelation, -⟩ := bind_eq_ok hone
  exact isSegment_of_relationRefForRef hrelation

theorem models_of_validated (h : validated relations = .ok project) :
    project.toRelations = relations := by
  unfold validated at h
  split at h
  · cases h
  · split at h
    · cases h
    · split at h
      · cases h
      · cases h
        rfl

theorem models_of_init {catalog projectId : Option String} {rawNamespace targetDialect : String}
    {models : List TransformModel}
    (h : TransformProject.init catalog projectId rawNamespace models targetDialect = .ok project) :
    project.models = models := by
  obtain ⟨_, -, h⟩ := bind_eq_ok h
  obtain ⟨_, -, h⟩ := bind_eq_ok h
  obtain ⟨_, -, h⟩ := bind_eq_ok h
  obtain ⟨_, -, h⟩ := bind_eq_ok h
  rw [models_of_validated h]

theorem refs_of_discover {directory : ModelsDirectory} {variants : List (Path × SqlDialect × Path)}
    {selected : SqlDialect} {base : Path}
    (h : discover directory variants selected base = .ok model) :
    model.refs = parseRefs model.sql := by
  unfold discover at h
  split at h
  · obtain ⟨_, -, h⟩ := bind_eq_ok h
    obtain ⟨_, -, h⟩ := bind_eq_ok h
    obtain ⟨-, h⟩ := guard_eq_ok h
    cases h
    rfl
  · cases h

/-- The references of a loaded model are those its SQL declares. -/
theorem refs_of_load {directory : ModelsDirectory} {catalog projectId : Option String}
    {rawNamespace targetDialect : String}
    (h : load directory catalog projectId rawNamespace targetDialect = .ok project)
    (hmodel : model ∈ project.models) : model.refs = parseRefs model.sql := by
  obtain ⟨_, -, h₁⟩ := bind_eq_ok h
  obtain ⟨_, -, h₂⟩ := bind_eq_ok h₁
  obtain ⟨_, -, h₃⟩ := bind_eq_ok h₂
  obtain ⟨discovered, hdiscovered, hinit⟩ := bind_eq_ok h₃
  rw [models_of_init hinit] at hmodel
  obtain ⟨base, -, hbase⟩ := exists_of_mem_mapM hdiscovered hmodel
  exact refs_of_discover hbase

end Loading

section Ordering

variable {relations : Relations} {selected : Option (List String)} {a b : String}

/-- The SQL of one model refers to another model. -/
def Relations.Refers (relations : Relations) (a b : String) : Prop :=
  ∃ model ∈ relations.models, model.name = a ∧ b ∈ model.refs ∧ b ∈ relations.names

/-- The models a selection needs. -/
def Relations.InClosure (relations : Relations) (selected : Option (List String))
    (name : String) : Prop :=
  ∃ root ∈ relations.roots selected, ReflTransGen relations.Refers root name

def Relations.CyclicClosure (relations : Relations) (selected : Option (List String)) : Prop :=
  ∃ name, relations.InClosure selected name ∧ TransGen relations.Refers name name

/-- Each model the selection needs, once, after the models it refers to. -/
structure Relations.BuildOrder (relations : Relations) (selected : Option (List String))
    (order : List TransformModel) : Prop where
  models : ∀ model ∈ order, model ∈ relations.models
  once : (order.map (·.name)).Nodup
  exact : ∀ name, name ∈ order.map (·.name) ↔ relations.InClosure selected name
  before : ∀ model ∈ order, ∀ reference, relations.Refers model.name reference →
    (order.map (·.name)).idxOf reference < (order.map (·.name)).idxOf model.name

theorem mem_successors (hunique : relations.names.Nodup) :
    b ∈ relations.successors a ↔ relations.Refers a b := by
  unfold Relations.successors
  constructor
  · intro h
    split at h
    next model hmodel =>
      obtain ⟨hmem, hname⟩ := model?_eq_some hmodel
      obtain ⟨href, hb⟩ := List.mem_filter.mp h
      exact ⟨model, hmem, hname, href, isSome_model?_iff.mp hb⟩
    next => cases h
  · rintro ⟨model, hmem, rfl, href, hb⟩
    rw [model?_name hunique hmem]
    exact List.mem_filter.mpr ⟨href, isSome_model?_iff.mpr hb⟩

theorem map_name_filterMap {names : List String} (h : ∀ name ∈ names, name ∈ relations.names) :
    (names.filterMap relations.model?).map (·.name) = names := by
  induction names with
  | nil => rfl
  | cons name rest ih =>
    obtain ⟨hname, hrest⟩ := List.forall_mem_cons.mp h
    obtain ⟨model, hmodel⟩ := Option.isSome_iff_exists.mp (isSome_model?_iff.mpr hname)
    rw [List.filterMap_cons_some hmodel, List.map_cons, ih hrest, (model?_eq_some hmodel).2]

theorem mem_names_of_inClosure (hroots : ∀ root ∈ relations.roots selected, root ∈ relations.names)
    (h : relations.InClosure selected a) : a ∈ relations.names := by
  obtain ⟨root, hroot, hreach⟩ := h
  cases hreach with
  | refl => exact hroots _ hroot
  | tail _ hstep =>
    obtain ⟨_, _, _, _, hin⟩ := hstep
    exact hin

theorem unknown_eq_nil : relations.unknown (relations.roots selected) = [] ↔
    ∀ root ∈ relations.roots selected, root ∈ relations.names := by
  simp only [Relations.unknown, List.eq_nil_iff_forall_not_mem, List.mem_insertionSort,
    List.mem_eraseDups, List.mem_filter, decide_eq_true_eq, not_and, not_not]

theorem buildOrder_of_sound (hunique : relations.names.Nodup)
    (hroots : ∀ root ∈ relations.roots selected, root ∈ relations.names) {search : Search String}
    (hsound : search.Sound relations.successors (relations.InClosure selected))
    (hall : ∀ root ∈ relations.roots selected, root ∈ search.order) :
    relations.BuildOrder selected (search.order.filterMap relations.model?) := by
  have hnames : (search.order.filterMap relations.model?).map (·.name) = search.order :=
    map_name_filterMap fun name hname =>
      mem_names_of_inClosure hroots (hsound.order_within name hname)
  constructor
  · intro model hmodel
    obtain ⟨name, -, hname⟩ := List.mem_filterMap.mp hmodel
    exact (model?_eq_some hname).1
  · rw [hnames]
    exact hsound.nodup_order
  · intro name
    rw [hnames]
    refine ⟨hsound.order_within name, ?_⟩
    rintro ⟨root, hroot, hreach⟩
    apply hsound.mem_of_reaches (hall root hroot)
    exact ReflTransGen.mono (fun _ _ => (mem_successors hunique).mpr) _ _ hreach
  · intro model hmodel reference href
    rw [hnames]
    have hmem : model.name ∈ search.order := by
      rw [← hnames]
      exact List.mem_map_of_mem hmodel
    exact hsound.idxOf_lt hmem ((mem_successors hunique).mpr href)

/-- An order of known models covers what the selection needs, or a cycle is reported;
the latter exactly when what it needs has one. -/
theorem ordered_covers_or_reports_cycle (hunique : relations.names.Nodup)
    (hroots : ∀ root ∈ relations.roots selected, root ∈ relations.names) :
    (¬ relations.CyclicClosure selected ∧
        ∃ order, relations.ordered selected = .ok order ∧ relations.BuildOrder selected order) ∨
      (relations.CyclicClosure selected ∧
        ∃ message, relations.ordered selected = .error (.transformProject message)) := by
  have hrefers : (fun a b => b ∈ relations.successors a) = relations.Refers := by
    ext a b
    exact mem_successors hunique
  have hclosed : ∀ a, relations.InClosure selected a → ∀ b ∈ relations.successors a,
      relations.InClosure selected b := by
    rintro a ⟨root, hroot, hreach⟩ b hb
    exact ⟨root, hroot, hreach.tail ((mem_successors hunique).mp hb)⟩
  have hdepth : relations.names.length ≤ relations.models.length := by simp [Relations.names]
  have hsearch := DepthFirst.search_spec hclosed (fun a => mem_names_of_inClosure hroots)
    (fun a ha => ⟨a, ha, .refl⟩ : ∀ a ∈ relations.roots selected, relations.InClosure selected a)
    hdepth
  unfold Relations.ordered
  rw [if_neg (not_not.mpr (unknown_eq_nil.mpr hroots))]
  rcases hsearch with ⟨search, hok, hnext, hall⟩ | ⟨walk, herror, hwalk, hwithin⟩
  · left
    refine ⟨?_, _, by rw [hok], buildOrder_of_sound hunique hroots hnext.sound hall⟩
    rintro ⟨name, ⟨root, hroot, hreach⟩, hcycle⟩
    rw [← hrefers] at hreach hcycle
    exact hnext.sound.acyclic (hnext.sound.mem_of_reaches (hall root hroot) hreach) hcycle
  · right
    refine ⟨?_, _, by rw [herror]; rfl⟩
    obtain ⟨name, hname, hcycle⟩ := hwalk.returns_to
    rw [hrefers] at hcycle
    exact ⟨name, hwithin name hname, hcycle⟩

theorem ordered_of_unknown (h : ¬ ∀ root ∈ relations.roots selected, root ∈ relations.names) :
    ∃ message, relations.ordered selected = .error (.transformProject message) := by
  unfold Relations.ordered
  rw [if_pos (mt unknown_eq_nil.mp h)]
  exact ⟨_, rfl⟩

end Ordering

section Coverage

/-- Of the models a compilation resolves, those are declared references, and built
before their consumer, that the SQL writes in the documented form. An order has
exactly the models its selection needs, and is refused exactly for a cycle among
them. -/
theorem build_order_covers_written (engines : Engines) (directory : ModelsDirectory)
    (catalog projectId : Option String) (rawNamespace targetDialect : String)
    (project : TransformProject)
    (h : load directory catalog projectId rawNamespace targetDialect = .ok project) :
    (∀ model ∈ project.models, ∀ (target : Option String) (sql : String),
      project.compile engines model target = .ok sql →
        ∀ reference ∈ project.resolvedReferences engines model target,
          reference ∈ project.names →
            (reference ∈ model.refs ↔ Written model.sql reference) ∧
              (Written model.sql reference →
                ∀ (selected : Option (List String)) (order : List TransformModel),
                  project.ordered selected = .ok order → model ∈ order →
                    (order.map (·.name)).idxOf reference <
                      (order.map (·.name)).idxOf model.name)) ∧
      ∀ selected : Option (List String),
        (∀ order, project.ordered selected = .ok order →
          project.BuildOrder selected order) ∧
        ((∃ failure, project.ordered selected = .error failure) ↔
          (∃ root ∈ project.roots selected, root ∉ project.names) ∨
            project.CyclicClosure selected) := by
  have horder : ∀ selected order, project.ordered selected = .ok order →
      project.BuildOrder selected order := by
    intro selected order hok
    by_cases hroots : ∀ root ∈ project.roots selected, root ∈ project.names
    · rcases ordered_covers_or_reports_cycle project.unique hroots with
        ⟨-, found, hfound, hbuild⟩ | ⟨-, message, herror⟩
      · rw [hok] at hfound
        rwa [Except.ok.inj hfound]
      · rw [hok] at herror
        cases herror
    · obtain ⟨message, herror⟩ := ordered_of_unknown hroots
      rw [hok] at herror
      cases herror
  refine ⟨?_, fun selected => ⟨horder selected, ?_⟩⟩
  · intro model hmodel target sql _ reference _ hname
    have hrefs := refs_of_load h hmodel
    have hdeclared : reference ∈ model.refs ↔ Written model.sql reference := by
      obtain ⟨other, hother, rfl⟩ := mem_names.mp hname
      have hall : ∀ found ∈ parseRefs model.sql,
          isSegment (fun _ => false) found.toList = true := by
        intro found hfound
        rw [← hrefs] at hfound
        exact isSegment_of_mem_refs hmodel hfound
      rw [hrefs]
      exact mem_parseRefs_iff hall other.metadata.identifier
    refine ⟨hdeclared, fun hwritten selected order hok hin => ?_⟩
    exact (horder selected order hok).before model hin reference
      ⟨model, hmodel, rfl, hdeclared.mpr hwritten, hname⟩
  · by_cases hroots : ∀ root ∈ project.roots selected, root ∈ project.names
    · rcases ordered_covers_or_reports_cycle project.unique hroots with
        ⟨hacyclic, order, hok, -⟩ | ⟨hcyclic, message, herror⟩
      · simp only [hok, reduceCtorEq, exists_false, false_iff, not_or, not_exists, not_and, not_not]
        exact ⟨hroots, hacyclic⟩
      · exact iff_of_true ⟨_, herror⟩ (.inr hcyclic)
    · obtain ⟨message, herror⟩ := ordered_of_unknown hroots
      push Not at hroots
      exact iff_of_true ⟨_, herror⟩ (.inl hroots)

def sidecarOf (model : String) (h : isSegment (fun _ => false) model.toList = true) :
    ModelMetadata := ⟨model, .bigquery, "staging", [], h⟩

/-- A model and a consumer with the given SQL. -/
def twoModels (consumerSql : String) : ModelsDirectory where
  sqlPaths := [⟨[], "consumer.sql"⟩, ⟨[], "base.sql"⟩]
  present path := path = ⟨[], "base.yml"⟩ || path = ⟨[], "consumer.yml"⟩
  loadModelMetadata path :=
    if path.name = "base.yml" then .ok (sidecarOf "base" (by decide))
    else .ok (sidecarOf "consumer" (by decide))
  readText path := if path.name = "base.sql" then .ok "SELECT 1 AS id" else .ok consumerSql

def selectFrom (expression : String) : String :=
  String.ofList ("SELECT id FROM ".toList ++ ['{', '{'] ++ expression.toList ++ ['}', '}'])

def writtenSql : String := selectFrom " ref('base') "

def filteredSql : String := selectFrom " ref('base') | trim "

/-- Jinja and a parser on the SQL of the two models. -/
def twoModelEngines : Engines where
  fromString sql :=
    if sql = "SELECT 1 AS id" then .text sql
    else .ref "base" fun relation => .text ("SELECT id FROM " ++ relation)
  tools := toolsFor "" (selectId [] (tableNamed "base")) []
  parseOne _ _ := some (selectId [] (tableIn "staging" "base"))
  sql _ _ := ""

def twoModelRelations (consumerSql : String) (refs : List String) : Relations where
  catalog := "valid-project-123"
  rawNamespace := "raw"
  models := [⟨sidecarOf "base" (by decide), "SELECT 1 AS id", [], ⟨[], "base.sql"⟩⟩,
    ⟨sidecarOf "consumer" (by decide), consumerSql, refs, ⟨[], "consumer.sql"⟩⟩]
  targetDialect := .bigquery

theorem load_twoModels_filtered :
    (load (twoModels filteredSql) (some "valid-project-123") none "raw" "bigquery").toOption.map
      (·.toRelations) = some (twoModelRelations filteredSql []) := by
  decide +kernel

theorem load_twoModels_written :
    (load (twoModels writtenSql) (some "valid-project-123") none "raw" "bigquery").toOption.map
      (·.toRelations) = some (twoModelRelations writtenSql ["base"]) := by
  decide +kernel

theorem exists_of_map_toRelations {outcome : Except ProjectError TransformProject}
    {relations : Relations} (h : outcome.toOption.map (·.toRelations) = some relations) :
    ∃ project, outcome = .ok project ∧ project.toRelations = relations := by
  obtain ⟨project, hproject, hrelations⟩ := Option.map_eq_some_iff.mp h
  exact ⟨project, eq_ok_of_toOption hproject, hrelations⟩

/-- A consumer in the documented form is built after its base. -/
theorem written_reference_in_order :
    ∃ project, load (twoModels writtenSql) (some "valid-project-123") none "raw" "bigquery" =
        .ok project ∧
      project.toRelations = twoModelRelations writtenSql ["base"] ∧
        ∀ order, project.ordered (some ["consumer"]) = .ok order →
          project.BuildOrder (some ["consumer"]) order := by
  obtain ⟨project, hload, hrelations⟩ := exists_of_map_toRelations load_twoModels_written
  refine ⟨project, hload, hrelations, ?_⟩
  exact ((build_order_covers_written twoModelEngines _ _ _ _ _ project hload).2
    (some ["consumer"])).1

/-- A filter after the call hides the reference from the search, not from Jinja. -/
theorem filtered_reference_missed :
    ¬ ∀ (engines : Engines) (directory : ModelsDirectory) (catalog projectId : Option String)
      (rawNamespace targetDialect : String) (project : TransformProject),
      load directory catalog projectId rawNamespace targetDialect = .ok project →
        ∀ model ∈ project.models, ∀ (target : Option String) (sql : String),
          project.compile engines model target = .ok sql →
            ∀ reference ∈ project.resolvedReferences engines model target,
              reference ∈ project.names → reference ∈ model.refs := by
  intro hclaim
  obtain ⟨project, hload, hrelations⟩ := exists_of_map_toRelations load_twoModels_filtered
  have hmodels := hclaim twoModelEngines _ _ _ _ _ project hload
  rw [hrelations] at hmodels
  let consumer : TransformModel :=
    ⟨sidecarOf "consumer" (by decide), filteredSql, [], ⟨[], "consumer.sql"⟩⟩
  have hcompiles : ((twoModelRelations filteredSql []).compile twoModelEngines consumer
      none).toOption = some "SELECT id FROM `valid-project-123.staging.base`" := by
    decide +kernel
  have hresolved : "base" ∈ (twoModelRelations filteredSql []).resolvedReferences twoModelEngines
      consumer none := by decide +kernel
  have hmissed := hmodels consumer (by decide +kernel) none _ (eq_ok_of_toOption hcompiles) "base"
    hresolved (by decide +kernel)
  cases hmissed

example : ((twoModelRelations filteredSql []).ordered (some ["consumer"])).toOption.map
    (fun order => order.map (·.name)) = some ["consumer"] := by decide +kernel

end Coverage

end Dander.Transform
