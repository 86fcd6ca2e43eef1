import Dander.CrashRefinement
import Dander.LocalGraphStore

/-!
# The local graph store refines the store in memory

Calls cut between two file operations and retried under the same key have the outcomes and
leave the graphs of the store in memory, as long as nobody disturbs a pending mutation: its
graph is still as the interrupted call left it when the retry resumes.
-/
namespace Dander.LocalGraphStore

open Interleaving GraphStore
open GraphStore.InMemoryGraphStore (Draw)

section Conditions

variable {Document : Type} (settings : Settings Document)

/-- The largest file that a read accepts. -/
def Settings.maxFileBytes : ℕ := maxEnvelopeOverhead + settings.maxGraphBytes

/-- Written files can be read back. -/
def Fits : FileOp Document → Disk Document → Prop
  | .writeGraph stored _, _ => settings.graphBytes stored ≤ settings.maxFileBytes
  | .writeJournal _ journal, _ => settings.journalBytes journal ≤ settings.maxFileBytes
  | _, _ => True

def scopeOf : Call Document → Option Scope
  | .create project _ _ idempotencyKey => some ⟨project, .create, idempotencyKey⟩
  | .delete project _ _ idempotencyKey => some ⟨project, .delete, idempotencyKey⟩
  | _ => none

/-- The texts a call takes the hash of. -/
def hashedTexts : Call Document → List String
  | .create project graph document idempotencyKey =>
    match checkedCreate settings.toContract project graph document idempotencyKey with
    | .ok canonical => [idempotencyKey, createRequest project graph canonical.contentSha256]
    | .error _ => []
  | .delete project graph expectedRevision idempotencyKey =>
    [idempotencyKey, deleteRequest project graph expectedRevision]
  | _ => []

def CollisionFree (texts : List String) : Prop :=
  ∀ first ∈ texts, ∀ second ∈ texts,
    settings.sha256 first = settings.sha256 second → first = second

/-- A journal is what the call, made with these arguments, would plan. -/
def MutationJournal.PlannedBy (journal : MutationJournal Document) : Call Document → Prop
  | .create project graph document idempotencyKey => ∀ canonical,
    checkedCreate settings.toContract project graph document idempotencyKey = .ok canonical →
    ∃ revision now, journal.plan =
      .create (plannedGraph project graph canonical revision now now)
  | .delete _ graph expectedRevision _ => journal.graph = graph ∧
    ∃ receipt, journal.plan = .delete expectedRevision receipt
  | _ => True

/-- An interrupted mutation that has not changed its graph yet is only retried with the
arguments it was made with, and hashes do not collide. -/
def Retried (calls : List (Call Document)) (disk : Disk Document) (call : Call Document) : Prop :=
  CollisionFree settings ((calls ++ [call]).flatMap (hashedTexts settings)) ∧
    ∀ scope, scopeOf call = some scope → ∀ journal,
      disk.journals (journalName settings scope) = some journal →
      journalName settings scope ∉ disk.applied → journal.PlannedBy settings call

/-- The graph of a pending journal is still as the interrupted call left it: a create that
wrote its graph finds this graph and one that did not finds none, and the other way round for
a delete. -/
def MutationJournal.Undisturbed (journal : MutationJournal Document) (disk : Disk Document) :
    Prop :=
  match journal.plan with
  | .create planned => disk.graphs (journal.project, journal.graph) =
      if journal.name ∈ disk.applied then some planned else none
  | .delete .. => disk.graphs (journal.project, journal.graph) = none ↔
      journal.name ∈ disk.applied

def Recoverable (disk : Disk Document) (call : Call Document) : Prop :=
  ∀ scope, scopeOf call = some scope → ∀ journal,
    disk.journals (journalName settings scope) = some journal →
    journal.status = .pending → journal.Undisturbed disk

/-- The atomic call of the store in memory, at any clock and with any revision drawn. -/
def atomicCall (contract : Contract Document) (call : Call Document)
    (memory : InMemoryGraphStore Document) (result : Except GraphStoreError (Outcome Document))
    (after : InMemoryGraphStore Document) : Prop :=
  ∃ draw, memory.perform contract draw call = (result, after)

/-- The same record or receipt, or errors of one class. -/
def sameReply : Except GraphStoreError (Outcome Document) →
    Except GraphStoreError (Outcome Document) → Prop
  | .ok first, .ok second => first = second
  | .error first, .error second => first.kind = second.kind
  | _, _ => False

end Conditions

section Relation

variable {Document : Type} (settings : Settings Document)

/-- A stored graph as a reader sees it. -/
def StoredGraph.shown (stored : StoredGraph Document) : GraphRecord Document :=
  stored.record ⟨stored.document, stored.contentSha256⟩

/-- Graphs are canonical, and a revision stands for one content. -/
structure SoundGraph (content : String → String) (revisions : List String)
    (stored : StoredGraph Document) : Prop where
  revision : isRevision stored.revision = true
  canonical : settings.canonicalizeGraphDocument stored.document =
    .ok ⟨stored.document, stored.contentSha256⟩
  drawn : stored.revision ∈ revisions
  content : content stored.revision = stored.contentSha256

def SoundPlan (content : String → String) (revisions : List String) : Plan Document → Prop
  | .create planned =>
    SoundGraph settings content revisions planned ∧ planned.updatedAt = planned.createdAt
  | .delete expectedRevision receipt =>
    expectedRevision ∈ revisions ∧ content expectedRevision = receipt.contentSha256

/-- The text whose hash is the fingerprint of a journal's request. -/
def MutationJournal.request (journal : MutationJournal Document) : String :=
  match journal.plan with
  | .create planned => createRequest journal.project journal.graph planned.contentSha256
  | .delete expectedRevision _ =>
    deleteRequest journal.project journal.graph expectedRevision

def MutationJournal.outcome (journal : MutationJournal Document) : Outcome Document :=
  match journal.plan with
  | .create planned => .record planned.shown
  | .delete _ receipt => .receipt receipt

structure SoundJournal (texts : List String) (content : String → String)
    (revisions : List String) (name : JournalName) (journal : MutationJournal Document) :
    Prop where
  named : journal.name = name
  keyed : ∃ key ∈ texts, settings.sha256 key = name.keySha256
  requested : journal.requestSha256 = settings.sha256 journal.request
  hashed : journal.request ∈ texts
  graph : isPortableId journal.graph = true
  fits : settings.journalBytes journal ≤ settings.maxFileBytes
  plan : SoundPlan settings content revisions journal.plan

/-- What the store in memory remembers of a journal: nothing before its graph has changed. -/
def savedOutcome (disk : Disk Document) (name : JournalName) : Option (String × Outcome Document) :=
  if name ∈ disk.applied then
    (disk.journals name).map fun journal => (journal.requestSha256, journal.outcome)
  else none

/-- Disk and memory after the same calls, which hashed the given texts. -/
structure Related (texts : List String) (content : String → String) (disk : Disk Document)
    (memory : InMemoryGraphStore Document) : Prop where
  contents : ∀ key, memory.records key = (disk.graphs key).map StoredGraph.shown
  stored : ∀ key stored, disk.graphs key = some stored →
    (stored.project, stored.graph) = key ∧ settings.graphBytes stored ≤ settings.maxFileBytes ∧
      SoundGraph settings content disk.revisions stored
  journals : ∀ name journal, disk.journals name = some journal →
    SoundJournal settings texts content disk.revisions name journal
  applied : ∀ name ∈ disk.applied, (disk.journals name).isSome
  completed : ∀ name journal, disk.journals name = some journal →
    journal.status = .completed → name ∈ disk.applied
  known : ∀ scope, scope.idempotencyKey ∈ texts →
    memory.idempotency scope = savedOutcome disk (journalName settings scope)
  unknown : ∀ scope, scope.idempotencyKey ∉ texts → memory.idempotency scope = none

variable {settings} {texts more : List String} {content content' : String → String}
  {revisions revisions' : List String} {disk : Disk Document}
  {memory : InMemoryGraphStore Document}

theorem SoundGraph.mono {stored : StoredGraph Document}
    (h : SoundGraph settings content revisions stored)
    (hkeep : ∀ revision ∈ revisions, content' revision = content revision)
    (hsub : revisions ⊆ revisions') : SoundGraph settings content' revisions' stored :=
  ⟨h.revision, h.canonical, hsub h.drawn, (hkeep _ h.drawn).trans h.content⟩

theorem SoundPlan.mono {plan : Plan Document} (h : SoundPlan settings content revisions plan)
    (hkeep : ∀ revision ∈ revisions, content' revision = content revision)
    (hsub : revisions ⊆ revisions') : SoundPlan settings content' revisions' plan := by
  cases plan with
  | create planned => exact ⟨h.1.mono hkeep hsub, h.2⟩
  | delete expectedRevision receipt => exact ⟨hsub h.1, (hkeep _ h.1).trans h.2⟩

/-- A new revision may stand for any content. -/
theorem Related.draw (h : Related settings texts content disk memory) {revision : String}
    (hfresh : revision ∉ disk.revisions) (sha256 : String) :
    Related settings texts (Function.update content revision sha256)
      { disk with revisions := revision :: disk.revisions } memory := by
  have hkeep : ∀ r ∈ disk.revisions, Function.update content revision sha256 r = content r := by
    intro r hr
    apply Function.update_of_ne
    rintro rfl
    exact hfresh hr
  have hsub : disk.revisions ⊆ revision :: disk.revisions := List.subset_cons_self _ _
  refine { h with stored := ?_, journals := ?_ }
  · intro key stored hstored
    obtain ⟨haddress, hfits, hsound⟩ := h.stored key stored hstored
    exact ⟨haddress, hfits, hsound.mono hkeep hsub⟩
  · intro name journal hjournal
    have hsound := h.journals name journal hjournal
    exact { hsound with plan := hsound.plan.mono hkeep hsub }

/-- Texts of a new call that do not collide with those before. -/
theorem Related.grow (h : Related settings texts content disk memory)
    (hfree : CollisionFree settings (texts ++ more)) :
    Related settings (texts ++ more) content disk memory := by
  refine { h with journals := ?_, known := ?_, unknown := ?_ }
  · intro name journal hjournal
    have hsound := h.journals name journal hjournal
    obtain ⟨key, hkey, hdigest⟩ := hsound.keyed
    exact { hsound with
      keyed := ⟨key, List.mem_append_left _ hkey, hdigest⟩
      hashed := List.mem_append_left _ hsound.hashed }
  · intro scope hscope
    by_cases hold : scope.idempotencyKey ∈ texts
    · exact h.known scope hold
    · rw [h.unknown scope hold]
      have hnone : disk.journals (journalName settings scope) = none := by
        by_contra hsome
        obtain ⟨journal, hjournal⟩ := Option.ne_none_iff_exists'.mp hsome
        obtain ⟨key, hkey, hdigest⟩ := (h.journals _ journal hjournal).keyed
        have hsame := hfree key (List.mem_append_left _ hkey) _ hscope hdigest
        exact hold (hsame ▸ hkey)
      simp [savedOutcome, hnone]
  · intro scope hscope
    exact h.unknown scope (fun hmem => hscope (List.mem_append_left _ hmem))

theorem Related.empty :
    Related settings [] content (Disk.empty : Disk Document) InMemoryGraphStore.empty := by
  constructor <;> simp [Disk.empty, InMemoryGraphStore.empty]

/-- One graph is replaced or removed, on disk and in memory. -/
theorem Related.replace (h : Related settings texts content disk memory) (key : String × String)
    (value : Option (StoredGraph Document))
    (hvalue : ∀ stored, value = some stored → (stored.project, stored.graph) = key ∧
      settings.graphBytes stored ≤ settings.maxFileBytes ∧
        SoundGraph settings content disk.revisions stored) :
    Related settings texts content
      { disk with graphs := Function.update disk.graphs key value }
      { memory with
        records := Function.update memory.records key (value.map StoredGraph.shown) } := by
  refine { h with contents := ?_, stored := ?_ }
  · intro other
    by_cases hother : other = key
    · subst hother
      simp
    · simp [Function.update_of_ne hother, h.contents other]
  · intro other stored hstored
    by_cases hother : other = key
    · subst hother
      simp only [Function.update_self] at hstored
      exact hvalue stored hstored
    · simp only [Function.update_of_ne hother] at hstored
      exact h.stored other stored hstored

theorem Disk.journal_of_write {name other : JournalName}
    {journal found : MutationJournal Document}
    (h : (disk.writeJournal name journal).journals other = some found) :
    (other = name ∧ found = journal) ∨ disk.journals other = some found := by
  by_cases hname : other = name
  · subst hname
    left
    simpa [Disk.writeJournal, eq_comm] using h
  · right
    simpa [Disk.writeJournal, Function.update_of_ne hname] using h

/-- A pending journal says nothing about the store in memory. -/
theorem Related.pending (h : Related settings texts content disk memory) {name : JournalName}
    {journal : MutationJournal Document}
    (hsound : SoundJournal settings texts content disk.revisions name journal)
    (hnew : disk.journals name = none) (hpending : journal.status = .pending) :
    Related settings texts content (disk.writeJournal name journal) memory := by
  have hunapplied : name ∉ disk.applied := by
    intro hmem
    have hsome := h.applied _ hmem
    simp [hnew] at hsome
  refine { h with journals := ?_, applied := ?_, completed := ?_, known := ?_ }
  · intro other found hfound
    rcases Disk.journal_of_write hfound with ⟨rfl, rfl⟩ | hold
    · exact hsound
    · exact h.journals other found hold
  · intro other hmem
    have hname : other ≠ name := by
      rintro rfl
      exact hunapplied hmem
    simpa [Disk.writeJournal, Function.update_of_ne hname] using h.applied other hmem
  · intro other found hfound hcompleted
    rcases Disk.journal_of_write hfound with ⟨rfl, rfl⟩ | hold
    · rw [hpending] at hcompleted
      cases hcompleted
    · exact h.completed other found hold hcompleted
  · intro scope hscope
    rw [h.known scope hscope]
    by_cases hname : journalName settings scope = name
    · simp [savedOutcome, Disk.writeJournal, hname, hunapplied]
    · simp [savedOutcome, Disk.writeJournal, Function.update_of_ne hname]

/-- Once its graph has changed, a journal is remembered in memory. -/
theorem Related.consume (h : Related settings texts content disk memory)
    (hfree : CollisionFree settings texts) {scope : Scope} (hkey : scope.idempotencyKey ∈ texts)
    {journal : MutationJournal Document}
    (hjournal : disk.journals (journalName settings scope) = some journal) :
    Related settings texts content
      { disk with applied := journalName settings scope :: disk.applied }
      { memory with
        idempotency := Function.update memory.idempotency scope
          (some (journal.requestSha256, journal.outcome)) } := by
  refine { h with applied := ?_, completed := ?_, known := ?_, unknown := ?_ }
  · intro name hmem
    rcases List.mem_cons.mp hmem with rfl | hold
    · simp [hjournal]
    · exact h.applied name hold
  · intro name found hfound hcompleted
    exact List.mem_cons_of_mem _ (h.completed name found hfound hcompleted)
  · intro other hother
    by_cases hsame : other = scope
    · subst hsame
      simp [savedOutcome, hjournal]
    · have hname : journalName settings other ≠ journalName settings scope := by
        intro heq
        simp only [journalName, JournalName.mk.injEq] at heq
        have htext := hfree _ hother _ hkey heq.2.2
        apply hsame
        cases other
        cases scope
        simp_all
      simp [Function.update_of_ne hsame, h.known other hother, savedOutcome, hname]
  · intro other hother
    have hne : other ≠ scope := by
      rintro rfl
      exact hother hkey
    simp [Function.update_of_ne hne, h.unknown other hother]

/-- Completing a journal whose graph has changed says nothing new. -/
theorem Related.complete (h : Related settings texts content disk memory)
    {journal : MutationJournal Document} (hjournal : disk.journals journal.name = some journal)
    (happlied : journal.name ∈ disk.applied)
    (hfits : settings.journalBytes { journal with status := .completed } ≤
      settings.maxFileBytes) :
    Related settings texts content
      (disk.writeJournal journal.name { journal with status := .completed }) memory := by
  refine { h with journals := ?_, applied := ?_, completed := ?_, known := ?_ }
  · intro name found hfound
    rcases Disk.journal_of_write hfound with ⟨rfl, rfl⟩ | hold
    · have hsound := h.journals _ journal hjournal
      exact ⟨hsound.named, hsound.keyed, hsound.requested, hsound.hashed, hsound.graph, hfits,
        hsound.plan⟩
    · exact h.journals name found hold
  · intro name hmem
    by_cases hname : name = journal.name
    · simp [Disk.writeJournal, hname]
    · simpa [Disk.writeJournal, Function.update_of_ne hname] using h.applied name hmem
  · intro name found hfound hcompleted
    rcases Disk.journal_of_write hfound with ⟨rfl, rfl⟩ | hold
    · exact happlied
    · exact h.completed name found hold hcompleted
  · intro scope hscope
    rw [h.known scope hscope]
    by_cases hname : journalName settings scope = journal.name
    · simp [savedOutcome, Disk.writeJournal, hname, hjournal, MutationJournal.outcome]
    · simp [savedOutcome, Disk.writeJournal, Function.update_of_ne hname]

end Relation

section Programs

variable {Document : Type} {settings : Settings Document}
variable {texts : List String} {content : String → String} {disk : Disk Document}
  {memory : InMemoryGraphStore Document} {α : Type} {K : Disk Document → Prop}
  {Q : α → Disk Document → Prop} {E : GraphStoreError → Disk Document → Prop}

/-- The file system of a store whose files can all be read back. -/
abbrev readableFiles (settings : Settings Document) :
    Machine (FileOp Document) Answer (Disk Document) := files.restrict (Fits settings)

theorem ensures_lift {x : Except GraphStoreError α} (hcut : K disk)
    (hok : ∀ a, x = .ok a → Q a disk) (herror : ∀ e, x = .error e → E e disk) :
    Ensures (readableFiles settings) K Q E (lift x) disk := by
  cases x with
  | ok a => exact ⟨hcut, hok a rfl⟩
  | error e => exact ⟨hcut, herror e rfl⟩

theorem checkedSize_ok {bytes : ℕ} (h : bytes ≤ settings.maxFileBytes) :
    checkedSize settings bytes = .ok () := by
  unfold checkedSize
  rw [if_neg]
  simpa [Settings.maxFileBytes] using h

theorem Related.checkedEnvelope_ok (h : Related settings texts content disk memory)
    {project graph : String} {stored : StoredGraph Document}
    (hstored : disk.graphs (project, graph) = some stored) :
    checkedEnvelope settings project graph stored =
      .ok ⟨stored.document, stored.contentSha256⟩ := by
  obtain ⟨haddress, hfits, hsound⟩ := h.stored _ stored hstored
  simp only [Prod.mk.injEq] at haddress
  simp [checkedEnvelope, checkedSize_ok hfits, haddress, hsound.revision, hsound.canonical, bind,
    Except.bind, pure, Except.pure]

theorem Related.ensures_loadEnvelope (h : Related settings texts content disk memory)
    {project graph : String} {Q : _ → Disk Document → Prop} (hcut : K disk)
    (hloaded : Q ((disk.graphs (project, graph)).map fun stored =>
      (stored, ⟨stored.document, stored.contentSha256⟩)) disk) :
    Ensures (readableFiles settings) K Q E (loadOptionalEnvelope settings project graph) disk := by
  refine ⟨hcut, ?_⟩
  rintro answer after ⟨-, draw, -, heq⟩
  obtain ⟨rfl, rfl⟩ : disk.graphs (project, graph) = answer ∧ disk = after := Prod.mk.inj heq
  cases hstored : disk.graphs (project, graph) with
  | none =>
    rw [hstored] at hloaded
    exact ⟨hcut, hloaded⟩
  | some stored =>
    rw [hstored] at hloaded
    simp only [h.checkedEnvelope_ok hstored, lift]
    exact ⟨hcut, hloaded⟩

theorem Related.ensures_load (h : Related settings texts content disk memory)
    {project graph : String} {Q : _ → Disk Document → Prop} (hcut : K disk)
    (hloaded : Q ((disk.graphs (project, graph)).map StoredGraph.shown) disk) :
    Ensures (readableFiles settings) K Q E (loadOptional settings project graph) disk := by
  apply Ensures.bind
  apply h.ensures_loadEnvelope hcut
  refine ⟨hcut, ?_⟩
  rw [Option.map_map]
  exact hloaded

theorem Related.ensures_loadJournal (h : Related settings texts content disk memory)
    {scope : Scope} {Q : _ → Disk Document → Prop} (hcut : K disk)
    (hloaded : Q (disk.journals (journalName settings scope)) disk) :
    Ensures (readableFiles settings) K Q E (loadJournal settings scope) disk := by
  refine ⟨hcut, ?_⟩
  rintro answer after ⟨-, draw, -, heq⟩
  obtain ⟨rfl, rfl⟩ : disk.journals (journalName settings scope) = answer ∧ disk = after :=
    Prod.mk.inj heq
  cases hjournal : disk.journals (journalName settings scope) with
  | none =>
    rw [hjournal] at hloaded
    exact ⟨hcut, hloaded⟩
  | some journal =>
    rw [hjournal] at hloaded
    simp only [checkedSize_ok (h.journals _ journal hjournal).fits, lift]
    exact ⟨hcut, hloaded⟩

theorem ensures_writePending {journal : MutationJournal Document} {Q : _ → Disk Document → Prop}
    (hcut : K disk)
    (hwritten : settings.journalBytes journal ≤ settings.maxFileBytes →
      K (disk.writeJournal journal.name journal) ∧
        Q () (disk.writeJournal journal.name journal)) :
    Ensures (readableFiles settings) K Q E (writePending journal) disk := by
  refine ⟨hcut, ?_⟩
  rintro answer written ⟨hfits, draw, -, heq⟩
  obtain rfl : disk.writeJournal journal.name journal = written := (Prod.mk.inj heq).2
  exact hwritten hfits

end Programs

section Calls

variable {Document : Type} (settings : Settings Document)
variable (texts : List String) (memory : InMemoryGraphStore Document) (call : Call Document)

/-- Where a call may be cut: with no effect yet, or with the effect of the atomic call. -/
def CutAt (disk : Disk Document) : Prop :=
  ∃ content after, Related settings texts content disk after ∧
    (after = memory ∨ ∃ result, atomicCall settings.toContract call memory result after)

def ReturnsAt (outcome : Outcome Document) (disk : Disk Document) : Prop :=
  ∃ content after, Related settings texts content disk after ∧
    atomicCall settings.toContract call memory (.ok outcome) after

def RaisesAt (e : GraphStoreError) (disk : Disk Document) : Prop :=
  ∃ content after e', Related settings texts content disk after ∧
    atomicCall settings.toContract call memory (.error e') after ∧ e.kind = e'.kind

variable {settings texts memory call} {content : String → String} {disk : Disk Document}

theorem Related.cut (h : Related settings texts content disk memory) :
    CutAt settings texts memory call disk := ⟨content, memory, h, .inl rfl⟩

theorem Related.cut_after {after : InMemoryGraphStore Document}
    {result : Except GraphStoreError (Outcome Document)}
    (h : Related settings texts content disk after)
    (hact : atomicCall settings.toContract call memory result after) :
    CutAt settings texts memory call disk := ⟨content, after, h, .inr ⟨result, hact⟩⟩

theorem Related.raises (h : Related settings texts content disk memory) {e e' : GraphStoreError}
    {draw : Draw} (hact : memory.perform settings.toContract draw call = (.error e', memory))
    (hkind : e.kind = e'.kind) : RaisesAt settings texts memory call e disk :=
  ⟨content, memory, e', h, ⟨draw, hact⟩, hkind⟩

theorem Related.saved (h : Related settings texts content disk memory) {scope : Scope}
    {journal : MutationJournal Document}
    (hkey : scope.idempotencyKey ∈ texts)
    (hjournal : disk.journals (journalName settings scope) = some journal)
    (happlied : journalName settings scope ∈ disk.applied) :
    memory.idempotency scope = some (journal.requestSha256, journal.outcome) := by
  rw [h.known scope hkey]
  simp [savedOutcome, happlied, hjournal]

theorem Related.unsaved (h : Related settings texts content disk memory) {scope : Scope}
    (hkey : scope.idempotencyKey ∈ texts)
    (hunapplied : journalName settings scope ∉ disk.applied) :
    memory.idempotency scope = none := by
  rw [h.known scope hkey]
  simp [savedOutcome, hunapplied]

theorem Related.unapplied (h : Related settings texts content disk memory) {name : JournalName}
    (hnone : disk.journals name = none) : name ∉ disk.applied := by
  intro hmem
  have hsome := h.applied name hmem
  simp [hnone] at hsome

/-- Replays of the same request pass, others are refused. -/
theorem SoundJournal.validateReplay_eq {scope : Scope} {graph fingerprint : String}
    {revisions : List String} {journal : MutationJournal Document}
    (h : SoundJournal settings texts content revisions (journalName settings scope) journal)
    (hgraph : journal.requestSha256 = fingerprint → journal.graph = graph) :
    validateReplay journal scope.project graph scope.operation
      (settings.sha256 scope.idempotencyKey) fingerprint =
      if journal.requestSha256 = fingerprint then .ok () else .error keyReused := by
  have hproject : journal.project = scope.project := congrArg JournalName.project h.named
  have hkey : journal.keySha256 = settings.sha256 scope.idempotencyKey :=
    congrArg JournalName.keySha256 h.named
  have hoperation : journal.plan.operation = scope.operation :=
    congrArg JournalName.operation h.named
  by_cases hrequest : journal.requestSha256 = fingerprint
  · simp [validateReplay, hproject, hkey, hoperation, hrequest, hgraph hrequest, pure,
      Except.pure]
  · simp [validateReplay, hproject, hkey, hoperation, hrequest, bind, Except.bind, throw,
      throwThe, MonadExceptOf.throw]

/-- The last steps of a mutation whose graph has changed. -/
theorem Related.ensures_complete {after : InMemoryGraphStore Document} {α : Type} {value : α}
    {wrap : α → Outcome Document} {journal : MutationJournal Document}
    (h : Related settings texts content disk after)
    (hjournal : disk.journals journal.name = some journal)
    (happlied : journal.name ∈ disk.applied)
    (hact : atomicCall settings.toContract call memory (.ok (wrap value)) after) :
    Ensures (readableFiles settings) (CutAt settings texts memory call)
      (fun a => ReturnsAt settings texts memory call (wrap a))
      (RaisesAt settings texts memory call)
      (LocalGraphStore.complete journal >>= fun _ => .ret value) disk := by
  refine ⟨h.cut_after hact, ?_⟩
  rintro answer written ⟨hfits, draw, -, heq⟩
  obtain rfl : disk.writeJournal journal.name { journal with status := .completed } = written :=
    (Prod.mk.inj heq).2
  have hdone := h.complete hjournal happlied hfits
  exact ⟨hdone.cut_after hact, content, after, hdone, hact⟩

end Calls

section Mutations

variable {Document : Type} {settings : Settings Document}
variable {texts : List String} {content : String → String} {disk : Disk Document}
  {memory : InMemoryGraphStore Document} {project graph idempotencyKey expectedRevision : String}
  {document : Document} {canonical : CanonicalGraphDocument Document}
  {journal : MutationJournal Document}

/-- A create that resumes from its journal, with its graph as it was left. -/
theorem Related.ensures_resumeCreate [DecidableEq Document] {planned : StoredGraph Document}
    (h : Related settings texts content disk memory) (hfree : CollisionFree settings texts)
    (hchecked : checkedCreate settings.toContract project graph document idempotencyKey =
      .ok canonical) (hkey : idempotencyKey ∈ texts)
    (hname : journalName settings ⟨project, .create, idempotencyKey⟩ = journal.name)
    (hjournal : disk.journals journal.name = some journal)
    (hplan : journal.plan = .create planned) (hgraph : journal.graph = graph)
    (hrequest : journal.requestSha256 =
      createFingerprint settings.toContract project graph canonical.contentSha256)
    (hundisturbed : journal.status = .pending → journal.Undisturbed disk)
    (hplanned : journal.name ∉ disk.applied →
      journal.PlannedBy settings (.create project graph document idempotencyKey)) :
    Ensures (readableFiles settings)
      (CutAt settings texts memory (.create project graph document idempotencyKey))
      (fun r => ReturnsAt settings texts memory
        (.create project graph document idempotencyKey) (.record r))
      (RaisesAt settings texts memory (.create project graph document idempotencyKey))
      (resumeCreate settings journal) disk := by
  have hproject : journal.project = project := (congrArg JournalName.project hname).symm
  have hsound : SoundGraph settings content disk.revisions planned ∧
      planned.updatedAt = planned.createdAt := by
    have hsoundPlan := (h.journals _ journal hjournal).plan
    rwa [hplan] at hsoundPlan
  have houtcome : journal.outcome = .record planned.shown := by
    simp [MutationJournal.outcome, hplan]
  have hreplay : journal.name ∈ disk.applied → atomicCall settings.toContract
      (.create project graph document idempotencyKey) memory (.ok (.record planned.shown))
      memory := by
    intro happlied
    have hsaved := h.saved hkey (hname ▸ hjournal) (hname ▸ happlied)
    refine ⟨⟨0, ""⟩, ?_⟩
    rw [InMemoryGraphStore.perform_create_replay _ hchecked hsaved]
    simp [InMemoryGraphStore.replayRecord, hrequest, houtcome, Except.map]
  simp only [resumeCreate, hplan, hsound.1.canonical, lift, Prog.ret_bind]
  rw [if_neg (by simp)]
  by_cases hcompleted : journal.status = .completed
  · rw [if_pos hcompleted]
    have happlied := h.completed _ journal hjournal hcompleted
    exact ⟨h.cut, content, memory, h, hreplay happlied⟩
  · rw [if_neg hcompleted]
    have hpending : journal.status = .pending := by
      cases hstatus : journal.status with
      | pending => rfl
      | completed => exact (hcompleted hstatus).elim
    have hgraphs := hundisturbed hpending
    simp only [MutationJournal.Undisturbed, hplan] at hgraphs
    apply Ensures.bind
    apply Ensures.bind
    apply h.ensures_loadEnvelope h.cut
    by_cases happlied : journal.name ∈ disk.applied
    · rw [if_pos happlied] at hgraphs
      simp only [hgraphs, Option.map_some, ne_eq, not_true_eq_false, if_false]
      exact ⟨h.cut, h.ensures_complete hjournal happlied (hreplay happlied)⟩
    · rw [if_neg happlied] at hgraphs
      simp only [hgraphs, Option.map_none]
      refine ⟨h.cut, ?_⟩
      rintro answer written ⟨hfits, draw, -, heq⟩
      obtain rfl : disk.writeGraph planned (some journal.name) = written := (Prod.mk.inj heq).2
      have haddress : (planned.project, planned.graph) = (project, graph) := by
        have haddressed := journal.addressed
        simp only [hplan, Plan.Addresses] at haddressed
        rw [haddressed.1, haddressed.2, hproject, hgraph]
      have hnew := (h.replace (planned.project, planned.graph) (some planned) (by
        intro stored hstored
        cases hstored
        exact ⟨rfl, hfits, hsound.1⟩)).consume hfree hkey (hname ▸ hjournal)
      rw [hname] at hnew
      have hact : atomicCall settings.toContract
          (.create project graph document idempotencyKey) memory (.ok (.record planned.shown))
          { records := Function.update memory.records (planned.project, planned.graph)
              (some planned.shown)
            idempotency := Function.update memory.idempotency ⟨project, .create, idempotencyKey⟩
              (some (journal.requestSha256, journal.outcome)) } := by
        obtain ⟨revision, now, hmade⟩ := hplanned happlied canonical hchecked
        rw [hplan, Plan.create.injEq] at hmade
        have hrecord : memory.records (project, graph) = none := by
          rw [h.contents, ← hproject, ← hgraph, hgraphs]
          rfl
        have hrevision : validatedNewRevision planned.revision = .ok () := by
          simp [validatedNewRevision, hsound.1.revision]
        refine ⟨⟨planned.createdAt, planned.revision⟩, ?_⟩
        rw [InMemoryGraphStore.perform_create_new _ hchecked (h.unsaved hkey (hname ▸ happlied))
          hrecord hrevision, haddress, hrequest, houtcome, hmade]
        rfl
      refine ⟨hnew.cut_after hact, hnew.ensures_complete hjournal ?_ hact⟩
      exact List.mem_cons_self

theorem Related.ensures_create [DecidableEq Document]
    (h : Related settings texts content disk memory) (hfree : CollisionFree settings texts)
    (htexts : hashedTexts settings (.create project graph document idempotencyKey) ⊆ texts)
    (hretried : ∀ journal,
      disk.journals (journalName settings ⟨project, .create, idempotencyKey⟩) = some journal →
      journalName settings ⟨project, .create, idempotencyKey⟩ ∉ disk.applied →
      journal.PlannedBy settings (.create project graph document idempotencyKey))
    (hrecoverable : Recoverable settings disk (.create project graph document idempotencyKey)) :
    Ensures (readableFiles settings)
      (CutAt settings texts memory (.create project graph document idempotencyKey))
      (fun r => ReturnsAt settings texts memory
        (.create project graph document idempotencyKey) (.record r))
      (RaisesAt settings texts memory (.create project graph document idempotencyKey))
      (create settings project graph document idempotencyKey) disk := by
  cases hchecked : checkedCreate settings.toContract project graph document idempotencyKey with
  | error e =>
    simp only [create, hchecked, lift, Prog.raise_bind]
    exact ⟨h.cut, h.raises (InMemoryGraphStore.perform_create_error ⟨0, ""⟩ hchecked) rfl⟩
  | ok canonical =>
    have hkey : idempotencyKey ∈ texts := htexts (by simp [hashedTexts, hchecked])
    have hrequestText : createRequest project graph canonical.contentSha256 ∈ texts :=
      htexts (by simp [hashedTexts, hchecked])
    have hportable := portable_of_checkedCreate hchecked
    have hcanonical := settings.canonical _ _ (canonical_of_checkedCreate hchecked)
    simp only [create, hchecked, lift, Prog.ret_bind]
    apply Ensures.bind
    apply h.ensures_loadJournal h.cut
    cases hjournal : disk.journals (journalName settings ⟨project, .create, idempotencyKey⟩) with
    | some journal =>
      have hsound := h.journals _ journal hjournal
      obtain ⟨planned, hplan⟩ : ∃ planned, journal.plan = .create planned := by
        have hoperation := congrArg JournalName.operation hsound.named
        cases hplan : journal.plan with
        | create planned => exact ⟨planned, rfl⟩
        | delete revision receipt =>
          simp [MutationJournal.name, hplan, Plan.operation, journalName] at hoperation
      have hrequestOf : journal.request =
          createRequest project journal.graph planned.contentSha256 := by
        have hproject : journal.project = project := congrArg JournalName.project hsound.named
        simp [MutationJournal.request, hplan, hproject]
      have hgraph : journal.requestSha256 = createFingerprint settings.toContract project graph
          canonical.contentSha256 → journal.graph = graph := by
        intro hrequest
        have hsame := hfree _ hsound.hashed _ hrequestText (hsound.requested.symm.trans hrequest)
        rw [hrequestOf] at hsame
        exact request_graph hsound.graph hportable hsame
      simp only [hsound.validateReplay_eq hgraph]
      by_cases hrequest : journal.requestSha256 =
          createFingerprint settings.toContract project graph canonical.contentSha256
      · rw [if_pos hrequest]
        have hname := hsound.named
        rw [← hname] at hjournal
        exact h.ensures_resumeCreate hfree hchecked hkey hname.symm hjournal hplan
          (hgraph hrequest) hrequest (hrecoverable _ rfl journal (hname ▸ hjournal))
          (fun hunapplied => hretried journal (hname ▸ hjournal) (hname ▸ hunapplied))
      · rw [if_neg hrequest]
        have happlied : journalName settings ⟨project, .create, idempotencyKey⟩ ∈
            disk.applied := by
          by_contra hunapplied
          obtain ⟨revision, now, hmade⟩ :=
            hretried journal hjournal hunapplied canonical hchecked
          apply hrequest
          have haddressed := journal.addressed
          rw [hmade] at haddressed
          rw [hsound.requested]
          simp [MutationJournal.request, hmade, ← haddressed.1, ← haddressed.2, plannedGraph,
            createFingerprint]
        have hsame := InMemoryGraphStore.perform_create_replay ⟨0, ""⟩ hchecked
          (h.saved hkey hjournal happlied)
        refine ⟨h.cut, h.raises (hsame.trans ?_) rfl⟩
        simp [InMemoryGraphStore.replayRecord, MutationJournal.outcome, hplan, hrequest,
          Except.map]
    | none =>
      have hunapplied := h.unapplied hjournal
      have hunsaved := h.unsaved hkey hunapplied
      simp only
      apply Ensures.bind
      apply h.ensures_load h.cut
      cases hstored : disk.graphs (project, graph) with
      | some stored =>
        have hrecord : memory.records (project, graph) = some stored.shown := by
          rw [h.contents, hstored]
          rfl
        have hsame := InMemoryGraphStore.perform_create_exists ⟨0, ""⟩ hchecked hunsaved hrecord
        exact ⟨h.cut, h.raises hsame rfl⟩
      | none =>
        have hrecord : memory.records (project, graph) = none := by
          rw [h.contents, hstored]
          rfl
        refine ⟨h.cut, ?_⟩
        rintro now after ⟨-, draw, -, heq⟩
        obtain rfl : disk = after := (Prod.mk.inj heq).2
        refine ⟨h.cut, ?_⟩
        rintro revision after ⟨-, drawn, hfresh, heq⟩
        obtain ⟨rfl, rfl⟩ : drawn.revision = revision ∧
            { disk with revisions := drawn.revision :: disk.revisions } = after :=
          Prod.mk.inj heq
        have hdrawn := h.draw (hfresh rfl) canonical.contentSha256
        apply Ensures.bind
        apply ensures_lift hdrawn.cut
        · intro _ hvalid
          apply Ensures.bind
          apply ensures_writePending hdrawn.cut
          intro hfits
          have hsound : SoundJournal settings texts
              (Function.update content drawn.revision canonical.contentSha256)
              (drawn.revision :: disk.revisions)
              (journalName settings ⟨project, .create, idempotencyKey⟩)
              (createJournal (plannedGraph project graph canonical drawn.revision now now)
                (settings.sha256 idempotencyKey)
                (createFingerprint settings.toContract project graph canonical.contentSha256)) :=
            ⟨rfl, ⟨idempotencyKey, hkey, rfl⟩, rfl, hrequestText, hportable, hfits,
              ⟨revision_of_validatedNewRevision hvalid, hcanonical, List.mem_cons_self,
                Function.update_self ..⟩, rfl⟩
          have hrelated := hdrawn.pending hsound hjournal rfl
          refine ⟨hrelated.cut, ?_⟩
          apply hrelated.ensures_resumeCreate hfree hchecked hkey
          · rfl
          · exact Function.update_self ..
          · rfl
          · rfl
          · rfl
          · intro _
            exact hstored.trans (if_neg hunapplied).symm
          · intro _ other hother
            obtain rfl : canonical = other := by
              rw [hchecked] at hother
              exact Except.ok.inj hother
            exact ⟨drawn.revision, now, rfl⟩
        · intro e hinvalid
          exact hdrawn.raises
            (InMemoryGraphStore.perform_create_invalid ⟨now, drawn.revision⟩ hchecked hunsaved
              hrecord hinvalid) rfl

/-- A delete that resumes from its journal, with its graph as it was left. -/
theorem Related.ensures_resumeDelete {receipt : GraphDeleteReceipt}
    (h : Related settings texts content disk memory) (hfree : CollisionFree settings texts)
    (hchecked : checkedDelete project graph expectedRevision idempotencyKey = .ok ())
    (hkey : idempotencyKey ∈ texts)
    (hname : journalName settings ⟨project, .delete, idempotencyKey⟩ = journal.name)
    (hjournal : disk.journals journal.name = some journal) {revision : String}
    (hplan : journal.plan = .delete revision receipt) (hgraph : journal.graph = graph)
    (hrequest : journal.requestSha256 =
      deleteFingerprint settings.toContract project graph expectedRevision)
    (hundisturbed : journal.status = .pending → journal.Undisturbed disk)
    (hplanned : journal.name ∉ disk.applied →
      journal.PlannedBy settings (.delete project graph expectedRevision idempotencyKey)) :
    Ensures (readableFiles settings)
      (CutAt settings texts memory (.delete project graph expectedRevision idempotencyKey))
      (fun r => ReturnsAt settings texts memory
        (.delete project graph expectedRevision idempotencyKey) (.receipt r))
      (RaisesAt settings texts memory (.delete project graph expectedRevision idempotencyKey))
      (resumeDelete settings journal) disk := by
  have hproject : journal.project = project := (congrArg JournalName.project hname).symm
  have houtcome : journal.outcome = .receipt receipt := by
    simp [MutationJournal.outcome, hplan]
  have hreplay : journal.name ∈ disk.applied → atomicCall settings.toContract
      (.delete project graph expectedRevision idempotencyKey) memory (.ok (.receipt receipt))
      memory := by
    intro happlied
    have hsaved := h.saved hkey (hname ▸ hjournal) (hname ▸ happlied)
    refine ⟨⟨0, ""⟩, ?_⟩
    rw [InMemoryGraphStore.perform_delete_replay _ hchecked hsaved]
    simp [InMemoryGraphStore.replayReceipt, hrequest, houtcome, Except.map]
  simp only [resumeDelete, hplan]
  by_cases hcompleted : journal.status = .completed
  · rw [if_pos hcompleted]
    have happlied := h.completed _ journal hjournal hcompleted
    exact ⟨h.cut, content, memory, h, hreplay happlied⟩
  · rw [if_neg hcompleted]
    have hpending : journal.status = .pending := by
      cases hstatus : journal.status with
      | pending => rfl
      | completed => exact (hcompleted hstatus).elim
    have hgraphs := hundisturbed hpending
    simp only [MutationJournal.Undisturbed, hplan, hproject, hgraph] at hgraphs
    apply Ensures.bind
    apply Ensures.bind
    apply h.ensures_load h.cut
    rw [hproject, hgraph]
    cases hstored : disk.graphs (project, graph) with
    | none =>
      have happlied := hgraphs.mp hstored
      exact ⟨h.cut, h.ensures_complete hjournal happlied (hreplay happlied)⟩
    | some stored =>
      have hunapplied : journal.name ∉ disk.applied := by
        intro happlied
        rw [hgraphs.mpr happlied] at hstored
        cases hstored
      have hunsaved := h.unsaved hkey (hname ▸ hunapplied)
      have hrecord : memory.records (project, graph) = some stored.shown := by
        rw [h.contents, hstored]
        rfl
      obtain ⟨-, _, hmade⟩ := hplanned hunapplied
      obtain ⟨rfl, rfl⟩ : revision = expectedRevision ∧ receipt = _ := by
        rw [hplan] at hmade
        exact Plan.delete.inj hmade
      simp only [Option.map_some]
      by_cases hstale : stored.shown.revision ≠ revision
      · rw [if_pos hstale]
        exact ⟨h.cut, h.raises (InMemoryGraphStore.perform_delete_stale ⟨0, ""⟩ hchecked
          hunsaved hrecord hstale) rfl⟩
      · rw [if_neg hstale]
        rw [ne_eq, not_not] at hstale
        refine ⟨h.cut, ?_⟩
        rintro answer written ⟨-, _, -, heq⟩
        obtain rfl : disk.deleteGraphFile project graph journal.name = written :=
          (Prod.mk.inj heq).2
        have hnew := (h.replace (project, graph) none (by simp)).consume hfree hkey
          (hname ▸ hjournal)
        rw [hname] at hnew
        have hcontent : receipt = ⟨project, graph, stored.shown.revision,
            stored.shown.contentSha256, receipt.deletedAt⟩ := by
          have haddressed := journal.addressed
          simp only [hplan, Plan.Addresses, hproject, hgraph] at haddressed
          have hplanSound := (h.journals _ journal hjournal).plan
          simp only [hplan, SoundPlan] at hplanSound
          have hstoredSound := (h.stored _ stored hstored).2.2
          have hsha : receipt.contentSha256 = stored.contentSha256 := by
            rw [← hplanSound.2, ← hstoredSound.content]
            exact congrArg content hstale.symm
          cases receipt
          simp_all [StoredGraph.shown, StoredGraph.record]
        have hact : atomicCall settings.toContract
            (.delete project graph revision idempotencyKey) memory (.ok (.receipt receipt))
            { records := Function.update memory.records (project, graph) none
              idempotency := Function.update memory.idempotency
                ⟨project, .delete, idempotencyKey⟩
                (some (journal.requestSha256, journal.outcome)) } := by
          refine ⟨⟨receipt.deletedAt, ""⟩, ?_⟩
          rw [InMemoryGraphStore.perform_delete_current _ hchecked hunsaved hrecord hstale,
            hrequest, houtcome]
          rw [← hcontent]
        refine ⟨hnew.cut_after hact, hnew.ensures_complete hjournal ?_ hact⟩
        exact List.mem_cons_self

theorem Related.ensures_delete
    (h : Related settings texts content disk memory) (hfree : CollisionFree settings texts)
    (htexts :
      hashedTexts settings (.delete project graph expectedRevision idempotencyKey) ⊆ texts)
    (hretried : ∀ journal,
      disk.journals (journalName settings ⟨project, .delete, idempotencyKey⟩) = some journal →
      journalName settings ⟨project, .delete, idempotencyKey⟩ ∉ disk.applied →
      journal.PlannedBy settings (.delete project graph expectedRevision idempotencyKey))
    (hrecoverable :
      Recoverable settings disk (.delete project graph expectedRevision idempotencyKey)) :
    Ensures (readableFiles settings)
      (CutAt settings texts memory (.delete project graph expectedRevision idempotencyKey))
      (fun r => ReturnsAt settings texts memory
        (.delete project graph expectedRevision idempotencyKey) (.receipt r))
      (RaisesAt settings texts memory (.delete project graph expectedRevision idempotencyKey))
      (delete settings project graph expectedRevision idempotencyKey) disk := by
  have hkey : idempotencyKey ∈ texts := htexts (by simp [hashedTexts])
  have hrequestText : deleteRequest project graph expectedRevision ∈ texts :=
    htexts (by simp [hashedTexts])
  cases hchecked : checkedDelete project graph expectedRevision idempotencyKey with
  | error e =>
    simp only [delete, hchecked, lift, Prog.raise_bind]
    exact ⟨h.cut, h.raises (InMemoryGraphStore.perform_delete_error ⟨0, ""⟩ hchecked) rfl⟩
  | ok _ =>
    have hportable := portable_of_checkedDelete hchecked
    simp only [delete, hchecked, lift, Prog.ret_bind]
    apply Ensures.bind
    apply h.ensures_loadJournal h.cut
    cases hjournal : disk.journals (journalName settings ⟨project, .delete, idempotencyKey⟩) with
    | some journal =>
      have hsound := h.journals _ journal hjournal
      obtain ⟨revision, receipt, hplan⟩ :
          ∃ revision receipt, journal.plan = .delete revision receipt := by
        have hoperation := congrArg JournalName.operation hsound.named
        cases hplan : journal.plan with
        | delete revision receipt => exact ⟨revision, receipt, rfl⟩
        | create planned =>
          simp [MutationJournal.name, hplan, Plan.operation, journalName] at hoperation
      have hproject : journal.project = project := congrArg JournalName.project hsound.named
      have hrequestOf : journal.request = deleteRequest project journal.graph revision := by
        simp [MutationJournal.request, hplan, hproject]
      have hgraph : journal.requestSha256 =
          deleteFingerprint settings.toContract project graph expectedRevision →
          journal.graph = graph := by
        intro hrequest
        have hsame := hfree _ hsound.hashed _ hrequestText (hsound.requested.symm.trans hrequest)
        rw [hrequestOf] at hsame
        exact request_graph hsound.graph hportable hsame
      simp only [hsound.validateReplay_eq hgraph]
      by_cases hrequest : journal.requestSha256 =
          deleteFingerprint settings.toContract project graph expectedRevision
      · rw [if_pos hrequest]
        have hname := hsound.named
        rw [← hname] at hjournal
        exact h.ensures_resumeDelete hfree hchecked hkey hname.symm hjournal hplan
          (hgraph hrequest) hrequest (hrecoverable _ rfl journal (hname ▸ hjournal))
          (fun hunapplied => hretried journal (hname ▸ hjournal) (hname ▸ hunapplied))
      · rw [if_neg hrequest]
        have happlied : journalName settings ⟨project, .delete, idempotencyKey⟩ ∈
            disk.applied := by
          by_contra hunapplied
          obtain ⟨hsameGraph, _, hmade⟩ := hretried journal hjournal hunapplied
          rw [hplan] at hmade
          obtain ⟨rfl, -⟩ := Plan.delete.inj hmade
          apply hrequest
          rw [hsound.requested, hrequestOf, hsameGraph, deleteFingerprint]
        refine ⟨h.cut, h.raises ((InMemoryGraphStore.perform_delete_replay ⟨0, ""⟩ hchecked
          (h.saved hkey hjournal happlied)).trans ?_) rfl⟩
        simp [InMemoryGraphStore.replayReceipt, MutationJournal.outcome, hplan, hrequest,
          Except.map]
    | none =>
      have hunapplied := h.unapplied hjournal
      have hunsaved := h.unsaved hkey hunapplied
      simp only
      apply Ensures.bind
      apply h.ensures_load h.cut
      cases hstored : disk.graphs (project, graph) with
      | none =>
        have hrecord : memory.records (project, graph) = none := by
          rw [h.contents, hstored]
          rfl
        exact ⟨h.cut, h.raises (InMemoryGraphStore.perform_delete_missing ⟨0, ""⟩ hchecked
          hunsaved hrecord) rfl⟩
      | some stored =>
        have hrecord : memory.records (project, graph) = some stored.shown := by
          rw [h.contents, hstored]
          rfl
        simp only [Option.map_some]
        by_cases hstale : stored.shown.revision ≠ expectedRevision
        · rw [if_pos hstale]
          exact ⟨h.cut, h.raises (InMemoryGraphStore.perform_delete_stale ⟨0, ""⟩ hchecked
            hunsaved hrecord hstale) rfl⟩
        · rw [if_neg hstale]
          rw [ne_eq, not_not] at hstale
          refine ⟨h.cut, ?_⟩
          rintro now after ⟨-, draw, -, heq⟩
          obtain rfl : disk = after := (Prod.mk.inj heq).2
          apply Ensures.bind
          apply ensures_writePending h.cut
          intro hfits
          have hstoredSound := (h.stored _ stored hstored).2.2
          have hsound : SoundJournal settings texts content disk.revisions
              (journalName settings ⟨project, .delete, idempotencyKey⟩)
              (deleteJournal ⟨project, graph, stored.shown.revision, stored.shown.contentSha256,
                now⟩ (settings.sha256 idempotencyKey)
                (deleteFingerprint settings.toContract project graph expectedRevision)) := by
            subst hstale
            exact ⟨rfl, ⟨idempotencyKey, hkey, rfl⟩, rfl, hrequestText, hportable, hfits,
              hstoredSound.drawn, hstoredSound.content⟩
          have hrelated := h.pending hsound hjournal rfl
          refine ⟨hrelated.cut, ?_⟩
          apply hrelated.ensures_resumeDelete hfree hchecked hkey
          · rfl
          · exact Function.update_self ..
          · rfl
          · rfl
          · rfl
          · intro _
            have hpresent : disk.graphs (project, graph) ≠ none := by simp [hstored]
            exact iff_of_false hpresent hunapplied
          · intro _
            subst hstale
            exact ⟨rfl, _, rfl⟩

theorem Related.ensures_get (h : Related settings texts content disk memory) :
    Ensures (readableFiles settings) (CutAt settings texts memory (.get project graph))
      (fun r => ReturnsAt settings texts memory (.get project graph) (.record r))
      (RaisesAt settings texts memory (.get project graph))
      (get settings project graph) disk := by
  cases hvalid : validatedGraphKey project graph with
  | error e =>
    simp only [get, hvalid, lift, Prog.raise_bind]
    exact ⟨h.cut, h.raises (InMemoryGraphStore.perform_get_error ⟨0, ""⟩ hvalid) rfl⟩
  | ok _ =>
    have hsame : memory.perform settings.toContract ⟨0, ""⟩ (.get project graph) = _ :=
      InMemoryGraphStore.perform_get ⟨0, ""⟩ hvalid
    simp only [get, hvalid, lift, Prog.ret_bind]
    apply Ensures.bind
    apply h.ensures_load h.cut
    rw [h.contents] at hsame
    cases hstored : disk.graphs (project, graph) with
    | none =>
      rw [hstored] at hsame
      exact ⟨h.cut, h.raises hsame rfl⟩
    | some stored =>
      rw [hstored] at hsame
      exact ⟨h.cut, content, memory, h, ⟨0, ""⟩, hsame⟩

theorem Related.ensures_put (h : Related settings texts content disk memory) :
    Ensures (readableFiles settings)
      (CutAt settings texts memory (.put project graph document expectedRevision))
      (fun r => ReturnsAt settings texts memory (.put project graph document expectedRevision)
        (.record r))
      (RaisesAt settings texts memory (.put project graph document expectedRevision))
      (put settings project graph document expectedRevision) disk := by
  cases hchecked : checkedPut settings.toContract project graph document expectedRevision with
  | error e =>
    simp only [put, hchecked, lift, Prog.raise_bind]
    exact ⟨h.cut, h.raises (InMemoryGraphStore.perform_put_error ⟨0, ""⟩ hchecked) rfl⟩
  | ok canonical =>
    have hcanonical := settings.canonical _ _ (canonical_of_checkedPut hchecked)
    simp only [put, hchecked, lift, Prog.ret_bind]
    apply Ensures.bind
    apply h.ensures_loadEnvelope h.cut
    have hcontents := h.contents (project, graph)
    cases hstored : disk.graphs (project, graph) with
    | none =>
      rw [hstored] at hcontents
      exact ⟨h.cut, h.raises (InMemoryGraphStore.perform_put_missing ⟨0, ""⟩ hchecked
        hcontents) rfl⟩
    | some stored =>
      rw [hstored] at hcontents
      simp only [Option.map_some]
      by_cases hstale : stored.revision ≠ expectedRevision
      · rw [if_pos hstale]
        exact ⟨h.cut, h.raises (InMemoryGraphStore.perform_put_stale ⟨0, ""⟩ hchecked hcontents
          hstale) rfl⟩
      · rw [if_neg hstale]
        rw [ne_eq, not_not] at hstale
        refine ⟨h.cut, ?_⟩
        rintro revision after ⟨-, drawn, hfresh, heq⟩
        obtain ⟨rfl, rfl⟩ : drawn.revision = revision ∧
            { disk with revisions := drawn.revision :: disk.revisions } = after :=
          Prod.mk.inj heq
        have hdrawn := h.draw (hfresh rfl) canonical.contentSha256
        apply Ensures.bind
        apply ensures_lift hdrawn.cut
        · intro _ hvalid
          refine ⟨hdrawn.cut, ?_⟩
          rintro now after ⟨-, _, -, heq⟩
          obtain rfl := (Prod.mk.inj heq).2
          refine ⟨hdrawn.cut, ?_⟩
          rintro answer written ⟨hfits, _, -, heq⟩
          obtain rfl := (Prod.mk.inj heq).2
          have hact : atomicCall settings.toContract
              (.put project graph document expectedRevision) memory
              (.ok (.record (plannedGraph project graph canonical drawn.revision
                stored.createdAt now).shown))
              { memory with
                records := Function.update memory.records (project, graph)
                  (some (plannedGraph project graph canonical drawn.revision stored.createdAt
                    now).shown) } := by
            refine ⟨⟨now, drawn.revision⟩, ?_⟩
            exact InMemoryGraphStore.perform_put_current ⟨now, drawn.revision⟩ hchecked hcontents
              hstale hvalid
          have hnew := hdrawn.replace (project, graph)
            (some (plannedGraph project graph canonical drawn.revision stored.createdAt now)) (by
              intro other hother
              cases hother
              exact ⟨rfl, hfits, revision_of_validatedNewRevision hvalid, hcanonical,
                List.mem_cons_self, Function.update_self ..⟩)
          exact ⟨hnew.cut_after hact, _, _, hnew, hact⟩
        · intro e hinvalid
          exact hdrawn.raises (InMemoryGraphStore.perform_put_invalid ⟨0, drawn.revision⟩
            hchecked hcontents hstale hinvalid) rfl

end Mutations

section Refinement

variable {Document : Type} {settings : Settings Document}

/-- The key whose result an atomic call saved. -/
def savedScope (step : Call Document × InMemoryGraphStore Document × InMemoryGraphStore Document) :
    Option Scope :=
  (scopeOf step.1).filter fun scope =>
    (step.2.1.idempotency scope).isNone && (step.2.2.idempotency scope).isSome

/-- Every key takes effect at most once in memory. -/
theorem savedScopes_nodup {contract : Contract Document}
    {attempts : List (Attempt GraphStoreError (Outcome Document) (Call Document))}
    {trace : List (Call Document × InMemoryGraphStore Document × InMemoryGraphStore Document)}
    {memory : InMemoryGraphStore Document}
    (h : Mirrored (atomicCall contract) sameReply InMemoryGraphStore.empty attempts trace
      memory) : (trace.filterMap savedScope).Nodup := by
  have hboth : (trace.filterMap savedScope).Nodup ∧
      ∀ scope ∈ trace.filterMap savedScope, (memory.idempotency scope).isSome := by
    refine h.invariant (P := fun trace memory => (trace.filterMap savedScope).Nodup ∧
      ∀ scope ∈ trace.filterMap savedScope, (memory.idempotency scope).isSome) (by simp) ?_
    rintro trace before call result after ⟨hnodup, hsaved⟩ ⟨draw, hact⟩
    have hkeep : ∀ scope, (before.idempotency scope).isSome → (after.idempotency scope).isSome := by
      intro scope hscope
      obtain ⟨saved, hsome⟩ := Option.isSome_iff_exists.mp hscope
      have hkept : (before.perform contract draw call).2.idempotency scope = some saved :=
        InMemoryGraphStore.perform_keeps draw call hsome
      rw [hact] at hkept
      exact Option.isSome_iff_exists.mpr ⟨saved, hkept⟩
    rw [List.filterMap_append]
    cases hscope : savedScope (call, before, after) with
    | none =>
      rw [List.filterMap_cons_none hscope, List.filterMap_nil, List.append_nil]
      exact ⟨hnodup, fun scope hmem => hkeep scope (hsaved scope hmem)⟩
    | some scope =>
      have hnew : before.idempotency scope = none ∧ (after.idempotency scope).isSome := by
        simpa [savedScope, Option.filter_eq_some_iff] using (Option.filter_eq_some_iff.mp hscope).2
      rw [List.filterMap_cons_some hscope, List.filterMap_nil]
      constructor
      · rw [List.nodup_append]
        refine ⟨hnodup, by simp, ?_⟩
        intro other hother _ hlast heq
        obtain rfl := List.mem_singleton.mp hlast
        subst heq
        have hsome := hsaved _ hother
        simp [hnew.1] at hsome
      · intro other hother
        rcases List.mem_append.mp hother with hold | hlast
        · exact hkeep other (hsaved other hold)
        · obtain rfl := List.mem_singleton.mp hlast
          exact hnew.2
  exact hboth.1

variable [DecidableEq Document] {texts : List String} {content : String → String}
  {disk : Disk Document} {memory : InMemoryGraphStore Document} {call : Call Document}

theorem Related.ensures_perform (h : Related settings texts content disk memory)
    (hfree : CollisionFree settings texts) (htexts : hashedTexts settings call ⊆ texts)
    (hretried : ∀ scope, scopeOf call = some scope → ∀ journal,
      disk.journals (journalName settings scope) = some journal →
      journalName settings scope ∉ disk.applied → journal.PlannedBy settings call)
    (hrecoverable : Recoverable settings disk call) :
    Ensures (readableFiles settings) (CutAt settings texts memory call)
      (ReturnsAt settings texts memory call) (RaisesAt settings texts memory call)
      (perform settings call) disk := by
  have hret : ∀ (outcome : Outcome Document) (after : Disk Document),
      ReturnsAt settings texts memory call outcome after →
      Ensures (readableFiles settings) (CutAt settings texts memory call)
        (ReturnsAt settings texts memory call) (RaisesAt settings texts memory call)
        (.ret outcome) after := by
    rintro outcome after hreturned
    obtain ⟨content', memory', hrelated, hact⟩ := hreturned
    exact ⟨hrelated.cut_after hact, content', memory', hrelated, hact⟩
  cases call with
  | get project graph => exact Ensures.bind (h.ensures_get.mono fun r t => hret _ t)
  | create project graph document key =>
    exact Ensures.bind ((h.ensures_create hfree htexts (hretried _ rfl) hrecoverable).mono
      fun r t => hret _ t)
  | put project graph document revision =>
    exact Ensures.bind (h.ensures_put.mono fun r t => hret _ t)
  | delete project graph revision key =>
    exact Ensures.bind ((h.ensures_delete hfree htexts (hretried _ rfl) hrecoverable).mono
      fun r t => hret _ t)

/-- One call, wherever it is cut, is skipped or matched by one atomic call. -/
theorem Related.attempt {calls : List (Call Document)} {out : Option _} {after : Disk Document}
    (h : Related settings (calls.flatMap (hashedTexts settings)) content disk memory)
    (hretried : Retried settings calls disk call) (hrecoverable : Recoverable settings disk call)
    (run : Alone (readableFiles settings) (perform settings call) disk out after) :
    (out = none ∧ ∃ content', Related settings
        ((calls ++ [call]).flatMap (hashedTexts settings)) content' after memory) ∨
      ∃ result memory', atomicCall settings.toContract call memory result memory' ∧
        (∀ reply, out = some reply → sameReply reply result) ∧
        ∃ content', Related settings ((calls ++ [call]).flatMap (hashedTexts settings)) content'
          after memory' := by
  obtain ⟨hfree, hplanned⟩ := hretried
  rw [List.flatMap_append, List.flatMap_singleton] at hfree ⊢
  have hgrown := h.grow hfree
  obtain ⟨hcut, hreturned, hraised⟩ := (hgrown.ensures_perform hfree
    (List.subset_append_right _ _) hplanned hrecoverable).alone run
  cases out with
  | none =>
    obtain ⟨content', memory', hrelated, rfl | ⟨result, hact⟩⟩ := hcut rfl
    · exact .inl ⟨rfl, content', hrelated⟩
    · exact .inr ⟨result, memory', hact, by simp, content', hrelated⟩
  | some reply =>
    right
    cases reply with
    | ok outcome =>
      obtain ⟨content', memory', hrelated, hact⟩ := hreturned outcome rfl
      refine ⟨_, memory', hact, ?_, content', hrelated⟩
      rintro _ ⟨⟩
      rfl
    | error e =>
      obtain ⟨content', memory', e', hrelated, hact, hkind⟩ := hraised e rfl
      refine ⟨_, memory', hact, ?_, content', hrelated⟩
      rintro _ ⟨⟩
      exact hkind

/-- Any sequence of calls, each cut anywhere and retried with the same key and arguments, has
the outcomes and leaves the graphs of atomic calls of the store in memory, where every key
takes effect at most once: as long as every file can be read back, and a pending mutation
that is resumed finds its graph as the interrupted call left it. -/
theorem local_store_refines_memory
    {attempts : List (Attempt GraphStoreError (Outcome Document) (Call Document))}
    (session : Session (readableFiles settings) (perform settings)
      (fun calls disk call => Retried settings calls disk call ∧ Recoverable settings disk call)
      Disk.empty attempts disk) :
    ∃ trace memory, Mirrored (atomicCall settings.toContract) sameReply
      InMemoryGraphStore.empty attempts trace memory ∧
      (trace.filterMap savedScope).Nodup ∧
      ∀ key, memory.records key = (disk.graphs key).map StoredGraph.shown := by
  obtain ⟨trace, memory, hmirrored, content, hrelated⟩ := session.mirrored
    (R := fun calls disk memory => ∃ content,
      Related settings (calls.flatMap (hashedTexts settings)) content disk memory)
    ⟨fun _ => "", Related.empty⟩ (by
      rintro calls disk memory call out after ⟨content, hrelated⟩ ⟨hretried, hrecoverable⟩ run
      exact hrelated.attempt hretried hrecoverable run)
  exact ⟨trace, memory, hmirrored, savedScopes_nodup hmirrored, hrelated.contents⟩

end Refinement

section Examples

def createKey : String := "create-1"
def deleteKey : String := "delete-01"
def drawnRevision : String := "1"
def documentSha256 : String :=
  "803caa58778fd574a43790c4d351ee2b74008139316d3f734c8c6b6066cce612"

/-- A store of one document; hashes are those of the texts of the examples, told apart by
their sizes. -/
def exampleSettings : Settings Unit where
  sha256 text :=
    match text.utf8ByteSize with
    | 8 => "3856b8d080d86a6de480f6a02beede99a08e54b66f9b4b4131eae8de59f85e19"
    | 9 => "dfc55a98d5f76e1278f10e2a8b88d8f24bc2731ed448be5428c594705f93255d"
    | 137 => "45b5b24b2e9bb9c2d68cafa73e1503e1bfe1894124c5919d77309626529abdc1"
    | _ => "4cb0fa13102aef3edd9c7da12dd9f3ffd077928a5138e97770929ca739744178"
  canonicalizeGraphDocument _ := .ok ⟨(), documentSha256⟩
  canonical _ _ h := h
  maxGraphBytes := 5 * 1024 * 1024
  graphBytes _ := 341
  journalBytes _ := 771

def createOrders : Call Unit := .create "p" "orders" () createKey
def deleteOrders : Call Unit := .delete "p" "orders" drawnRevision deleteKey

theorem checkedCreate_example :
    checkedCreate exampleSettings.toContract "p" "orders" () createKey =
      .ok ⟨(), documentSha256⟩ := by rfl

theorem checkedDelete_example : checkedDelete "p" "orders" drawnRevision deleteKey = .ok () := by
  rfl

/-- Serves every request; the revision can be drawn once. -/
def serveExample (o : FileOp Unit) (disk : Disk Unit) : Option (Answer o × Disk Unit) :=
  match o with
  | .revision => if disk.revisions = [] then some (serve ⟨0, drawnRevision⟩ .revision disk) else none
  | o => some (serve ⟨0, drawnRevision⟩ o disk)

theorem readableFiles_of_serveExample (o : FileOp Unit) (disk : Disk Unit) (answer : Answer o)
    (disk' : Disk Unit) (h : serveExample o disk = some (answer, disk')) :
    (readableFiles exampleSettings).step o disk answer disk' := by
  have hfits : Fits exampleSettings o disk := by
    cases o with
    | writeGraph stored onBehalfOf => exact (by decide : 341 ≤ exampleSettings.maxFileBytes)
    | writeJournal name journal => exact (by decide : 771 ≤ exampleSettings.maxFileBytes)
    | _ => trivial
  refine ⟨hfits, ⟨0, drawnRevision⟩, ?_, ?_⟩
  · rintro rfl
    simp only [serveExample] at h
    split at h
    next hempty => simp [hempty]
    · cases h
  · cases o with
    | revision =>
      simp only [serveExample] at h
      split at h
      · exact Option.some.inj h
      · cases h
    | _ => exact Option.some.inj h

def exampleTexts : List String :=
  [createKey, deleteKey, createRequest "p" "orders" documentSha256,
    deleteRequest "p" "orders" drawnRevision]

theorem exampleTexts_collisionFree : ∀ first ∈ exampleTexts, ∀ second ∈ exampleTexts,
    exampleSettings.sha256 first = exampleSettings.sha256 second → first = second := by
  decide +kernel

theorem hashedTexts_example {call : Call Unit} (h : call = createOrders ∨ call = deleteOrders) :
    hashedTexts exampleSettings call ⊆ exampleTexts := by
  intro text htext
  rcases h with rfl | rfl
  · simp only [createOrders, hashedTexts, checkedCreate_example, List.mem_cons,
      List.not_mem_nil, or_false] at htext
    rcases htext with rfl | rfl <;> simp [exampleTexts]
  · simp only [deleteOrders, hashedTexts, List.mem_cons, List.not_mem_nil, or_false] at htext
    rcases htext with rfl | rfl <;> simp [exampleTexts]

/-- The example's calls under keys that are never used with other arguments. -/
def admitsExample (calls : List (Call Unit)) (disk : Disk Unit) (call : Call Unit) : Bool :=
  (calls ++ [call]).all (fun c => decide (c = createOrders ∨ c = deleteOrders)) &&
  match scopeOf call with
  | none => true
  | some scope => (disk.journals (journalName exampleSettings scope)).all fun journal =>
    match call, journal.plan with
    | .create project graph _ _, .create planned => decide (planned =
        plannedGraph project graph ⟨(), documentSha256⟩ planned.revision planned.createdAt
          planned.createdAt)
    | .delete _ graph revision _, .delete expectedRevision _ =>
      decide (journal.graph = graph) && decide (expectedRevision = revision)
    | _, _ => false

theorem retried_of_admitsExample (calls : List (Call Unit)) (disk : Disk Unit)
    (call : Call Unit) (h : admitsExample calls disk call = true) :
    Retried exampleSettings calls disk call := by
  simp only [admitsExample, Bool.and_eq_true, List.all_eq_true, decide_eq_true_eq] at h
  have htexts : (calls ++ [call]).flatMap (hashedTexts exampleSettings) ⊆ exampleTexts := by
    intro text htext
    obtain ⟨other, hother, hmem⟩ := List.mem_flatMap.mp htext
    exact hashedTexts_example (h.1 other hother) hmem
  refine ⟨fun first hfirst second hsecond => exampleTexts_collisionFree first (htexts hfirst) second
    (htexts hsecond), ?_⟩
  intro scope hscope journal hjournal _
  have hplan := h.2
  simp only [hscope, hjournal, Option.all_some] at hplan
  split at hplan
  next project graph document key planned hcreate =>
    intro canonical hcanonical
    have hsame := canonical_of_checkedCreate hcanonical
    simp only [exampleSettings, Except.ok.injEq] at hsame
    subst hsame
    exact ⟨planned.revision, planned.createdAt, hcreate.trans
      (congrArg Plan.create (of_decide_eq_true hplan))⟩
  next project graph revision key expectedRevision receipt hdelete =>
    simp only [Bool.and_eq_true, decide_eq_true_eq] at hplan
    obtain ⟨hgraph, rfl⟩ := hplan
    exact ⟨hgraph, receipt, hdelete⟩
  · cases hplan

/-- A cut create, a delete and the retried create, both with results, and a graph at the end. -/
def restoresGraph (done : List (Attempt GraphStoreError (Outcome Unit) (Call Unit)) × Disk Unit) :
    Bool :=
  match done.1.map Attempt.outcome with
  | [none, some (.ok _), some (.ok _)] => (done.2.graphs ("p", "orders")).isSome
  | _ => false

/-- In memory, a create that is replayed after a delete leaves no graph. -/
theorem records_of_replayed_create {created deleted memory : InMemoryGraphStore Unit}
    {draw draw' : Draw} {first : Outcome Unit}
    {result : Except GraphStoreError (Outcome Unit)}
    (hdeleted : created.perform exampleSettings.toContract draw deleteOrders =
      (.ok first, deleted))
    (hretried : deleted.perform exampleSettings.toContract draw' createOrders =
      (result, memory))
    (hrecord : (created.records ("p", "orders")).isSome)
    (hsaved : (created.idempotency ⟨"p", .create, createKey⟩).isSome)
    (hunsaved : created.idempotency ⟨"p", .delete, deleteKey⟩ = none) :
    memory.records ("p", "orders") = none := by
  obtain ⟨record, hrecord⟩ := Option.isSome_iff_exists.mp hrecord
  obtain ⟨saved, hsaved⟩ := Option.isSome_iff_exists.mp hsaved
  have hkept : (created.perform exampleSettings.toContract draw deleteOrders).2.idempotency
      ⟨"p", .create, createKey⟩ = some saved :=
    InMemoryGraphStore.perform_keeps draw deleteOrders hsaved
  rw [hdeleted] at hkept
  rw [createOrders, InMemoryGraphStore.perform_create_replay draw' checkedCreate_example hkept,
    Prod.mk.injEq] at hretried
  obtain rfl := hretried.2
  by_cases hcurrent : record.revision = drawnRevision
  · rw [deleteOrders, InMemoryGraphStore.perform_delete_current draw checkedDelete_example hunsaved
      hrecord hcurrent, Prod.mk.injEq] at hdeleted
    rw [← hdeleted.2]
    simp
  · rw [deleteOrders, InMemoryGraphStore.perform_delete_stale draw checkedDelete_example hunsaved
      hrecord hcurrent] at hdeleted
    cases hdeleted

theorem delete_of_empty {draw : Draw} {first : Outcome Unit} {deleted : InMemoryGraphStore Unit} :
    (InMemoryGraphStore.empty : InMemoryGraphStore Unit).perform exampleSettings.toContract draw
      deleteOrders ≠ (.ok first, deleted) := by
  intro hdeleted
  rw [deleteOrders, InMemoryGraphStore.perform_delete_missing draw checkedDelete_example rfl rfl]
    at hdeleted
  cases hdeleted

/-- In memory, no graph is left by a create that was cut, a delete and the retried create. -/
theorem records_of_retried_create
    {trace : List (Call Unit × InMemoryGraphStore Unit × InMemoryGraphStore Unit)}
    {memory : InMemoryGraphStore Unit} {first second : Outcome Unit}
    (h : Mirrored (atomicCall exampleSettings.toContract) sameReply InMemoryGraphStore.empty
      ([] ++ [⟨createOrders, none⟩] ++ [⟨deleteOrders, some (.ok first)⟩] ++
        [⟨createOrders, some (.ok second)⟩]) trace memory) :
    memory.records ("p", "orders") = none := by
  obtain ⟨hnone, -⟩ | ⟨_, deleted, _, h, ⟨draw, hretried⟩, -⟩ := h.snoc_cases
  · cases hnone
  obtain ⟨hnone, -⟩ | ⟨_, created, result, h, ⟨draw', hdeleted⟩, hsame⟩ := h.snoc_cases
  · cases hnone
  obtain rfl : result = .ok first := by
    have hreceipt := hsame _ rfl
    cases result with
    | ok outcome => exact congrArg Except.ok hreceipt.symm
    | error e => cases hreceipt
  obtain ⟨-, h⟩ | ⟨_, start, _, h, ⟨draw'', hcreated⟩, -⟩ := h.snoc_cases
  · obtain rfl := h.eq_of_nil
    exact (delete_of_empty hdeleted).elim
  · obtain rfl := h.eq_of_nil
    cases hrevision : validatedNewRevision draw''.revision with
    | error e =>
      rw [createOrders, InMemoryGraphStore.perform_create_invalid draw'' checkedCreate_example rfl
        rfl hrevision, Prod.mk.injEq] at hcreated
      obtain rfl := hcreated.2
      exact (delete_of_empty hdeleted).elim
    | ok _ =>
      rw [createOrders, InMemoryGraphStore.perform_create_new draw'' checkedCreate_example rfl rfl
        hrevision, Prod.mk.injEq] at hcreated
      obtain rfl := hcreated.2
      refine records_of_replayed_create hdeleted hretried (by simp) (by simp) ?_
      simp [InMemoryGraphStore.empty]

theorem attempts_eq {ε α C : Type} {attempts : List (Attempt ε α C)} {a b c : C}
    {x y z : Option (Except ε α)} (hcalls : attempts.map Attempt.call = [a, b, c])
    (houtcomes : attempts.map Attempt.outcome = [x, y, z]) :
    attempts = [⟨a, x⟩, ⟨b, y⟩, ⟨c, z⟩] := by
  match attempts, hcalls, houtcomes with
  | [⟨_, _⟩, ⟨_, _⟩, ⟨_, _⟩], rfl, rfl => rfl

/-- A create is cut after it wrote its graph, the graph is deleted, and the retried create
writes it again. -/
theorem retried_create_restores_deleted_graph :
    ¬ ∀ attempts disk, Session (readableFiles exampleSettings) (perform exampleSettings)
        (Retried exampleSettings) Disk.empty attempts disk →
      ∃ trace memory, Mirrored (atomicCall exampleSettings.toContract) sameReply
        InMemoryGraphStore.empty attempts trace memory ∧
        ∀ key, memory.records key = (disk.graphs key).map StoredGraph.shown := by
  intro hall
  have hplay : (playSession serveExample (perform exampleSettings) admitsExample [] Disk.empty
      [(createOrders, 7), (deleteOrders, 9), (createOrders, 9)]).any restoresGraph = true := by
    decide +kernel
  obtain ⟨⟨attempts, disk⟩, hplayed, hrestores⟩ := (Option.any_eq_true _ _).mp hplay
  have hsession : Session (readableFiles exampleSettings) (perform exampleSettings)
      (fun later => Retried exampleSettings ([] ++ later)) Disk.empty attempts disk :=
    session_of_playSession readableFiles_of_serveExample retried_of_admitsExample hplayed
  have hcalls := calls_of_playSession hplayed
  obtain ⟨trace, memory, hmirrored, hcontents⟩ := hall attempts disk (by simpa using hsession)
  obtain ⟨first, second, rfl, hpresent⟩ : ∃ first second, attempts =
      [⟨createOrders, none⟩, ⟨deleteOrders, some (.ok first)⟩,
        ⟨createOrders, some (.ok second)⟩] ∧ (disk.graphs ("p", "orders")).isSome := by
    simp only [restoresGraph] at hrestores
    split at hrestores
    next first second houtcomes =>
      refine ⟨first, second, ?_, hrestores⟩
      exact attempts_eq hcalls houtcomes
    · cases hrestores
  have hrecords := records_of_retried_create hmirrored
  rw [hcontents, Option.map_eq_none_iff] at hrecords
  simp [hrecords] at hpresent

/-- The example's calls that find a pending mutation as it was left. -/
def admitsRecoverable (calls : List (Call Unit)) (disk : Disk Unit) (call : Call Unit) : Bool :=
  admitsExample calls disk call &&
  match scopeOf call with
  | none => true
  | some scope => (disk.journals (journalName exampleSettings scope)).all fun journal =>
    match journal.plan with
    | .create planned => decide (disk.graphs (journal.project, journal.graph) =
        if journal.name ∈ disk.applied then some planned else none)
    | .delete .. => decide (disk.graphs (journal.project, journal.graph) = none ↔
        journal.name ∈ disk.applied)

theorem recoverable_of_admits (calls : List (Call Unit)) (disk : Disk Unit) (call : Call Unit)
    (h : admitsRecoverable calls disk call = true) :
    Retried exampleSettings calls disk call ∧ Recoverable exampleSettings disk call := by
  simp only [admitsRecoverable, Bool.and_eq_true] at h
  refine ⟨retried_of_admitsExample calls disk call h.1, ?_⟩
  intro scope hscope journal hjournal _
  have hleft := h.2
  simp only [hscope, hjournal, Option.all_some] at hleft
  unfold MutationJournal.Undisturbed
  split at hleft
  next planned hplan =>
    rw [hplan]
    exact of_decide_eq_true hleft
  next revision receipt hplan =>
    rw [hplan]
    exact of_decide_eq_true hleft

/-- A create is cut after its journal and retried; a delete is cut after its graph is gone and
retried. -/
theorem local_store_refines_memory_retried :
    ∃ attempts disk, Session (readableFiles exampleSettings) (perform exampleSettings)
        (fun calls disk call => Retried exampleSettings calls disk call ∧
          Recoverable exampleSettings disk call) Disk.empty attempts disk ∧
      attempts.map Attempt.call = [createOrders, createOrders, deleteOrders, deleteOrders] ∧
      ∃ trace memory, Mirrored (atomicCall exampleSettings.toContract) sameReply
        InMemoryGraphStore.empty attempts trace memory ∧
        (trace.filterMap savedScope).Nodup ∧
        ∀ key, memory.records key = (disk.graphs key).map StoredGraph.shown := by
  have hplay : (playSession serveExample (perform exampleSettings) admitsRecoverable [] Disk.empty
      [(createOrders, 5), (createOrders, 9), (deleteOrders, 6), (deleteOrders, 9)]).isSome =
        true := by
    decide +kernel
  obtain ⟨⟨attempts, disk⟩, hplayed⟩ := Option.isSome_iff_exists.mp hplay
  have hsession : Session (readableFiles exampleSettings) (perform exampleSettings)
      (fun calls disk call => Retried exampleSettings ([] ++ calls) disk call ∧
        Recoverable exampleSettings disk call) Disk.empty attempts disk :=
    session_of_playSession readableFiles_of_serveExample recoverable_of_admits hplayed
  simp only [List.nil_append] at hsession
  exact ⟨attempts, disk, hsession, calls_of_playSession hplayed,
    local_store_refines_memory hsession⟩

end Examples

end Dander.LocalGraphStore
