import Dander.RunLifecycleSafety
import Dander.RunTransitions
import Mathlib

/-!
# Times of saved snapshots

Control stamps a snapshot when it dispatches or cancels a run; a reconciler stamps one with the
time of the observation. Each clock only moves forward, but neither knows the other. The times of
a run's snapshots are in order as long as no reading of one clock is behind the snapshot of the
other that it replaces.
-/
namespace Dander.Lifecycle

open Interleaving ObjectStore Orchestration

section Property

/-- A later snapshot is not older, and its run did not end before an earlier one was saved. -/
structure InTime (record previous : RunRecord) : Prop where
  updatedAt : previous.updatedAt ≤ record.updatedAt
  terminalAt : ∀ instant, record.terminalAt = some instant → previous.terminalAt = none →
    previous.updatedAt ≤ instant

/-- The times of all the snapshots that were ever saved of a run are in order. -/
def TimesInOrder (w : World) : Prop :=
  w.snapshots.Pairwise fun later earlier => later.name = earlier.name →
    ∀ record previous, later.value = some record → earlier.value = some previous →
      InTime record previous

end Property

section Calls

/-- What Control does to runs. -/
inductive ControlStep where
  | start (submission : RunSubmission)
  | cancel (runId : String)
  | reconcile (stored : StoredRun)
  deriving Repr, DecidableEq

structure ControlCall where
  registry : Registry
  step : ControlStep
  deriving Repr, DecidableEq

/-- The call reconciles a run that was dispatched: its snapshot gets the time of an observation. -/
def ControlCall.observes (call : ControlCall) : Bool :=
  match call.step with
  | .start _ => false
  | .cancel _ => false
  | .reconcile stored => stored.record.runState ∉ [HostedRunState.queued, .retrying]

def take (sha256 : String → String) (call : ControlCall) : Action Outcome :=
  match call.step with
  | .start submission =>
    start sha256 call.registry submission >>= fun started => .ret (.run started.1)
  | .cancel runId =>
    cancelOnce sha256 call.registry runId >>= fun result => .ret (.mutation result)
  | .reconcile stored =>
    reconcileStored sha256 call.registry stored >>= fun stored => .ret (.run stored)

end Calls

section Clocks

/-- The latest readings of Control's clock and of each execution's observations. -/
structure Readings where
  control : WithBot ℤ
  observed : BackendHandle → WithBot ℤ

/-- No clock goes back. -/
def Readings.Admits (readings : Readings) : (o : Request) → Answer o → Prop
  | .clock, (now : ℤ) => readings.control ≤ now
  | .observe _ handle, some observation => readings.observed handle ≤ observation.observedAt
  | _, _ => True

def Readings.read (readings : Readings) : (o : Request) → Answer o → Readings
  | .clock, (now : ℤ) => { readings with control := now }
  | .observe _ handle, some observation =>
    { readings with observed := Function.update readings.observed handle observation.observedAt }
  | _, _ => readings

/-- The world, the clocks, and the revisions that have the time of an observation. -/
structure Timed where
  world : World
  readings : Readings
  observed : List ℕ

def Timed.empty : Timed := ⟨World.empty, ⟨⊥, fun _ => ⊥⟩, []⟩

/-- What is kept of a step: a revision that it adds is marked if the call observes. -/
def Timed.next (s : Timed) (call : ControlCall) (o : Request) (answer : Answer o) (w : World) :
    Timed where
  world := w
  readings := s.readings.read o answer
  observed := if call.observes && decide (s.world.snapshots.length < w.snapshots.length) then
    s.world.snapshots.length :: s.observed else s.observed

/-- The services, with clocks that do not go back. -/
def clocked : Machine (ControlCall × Request) (fun o => Answer o.2) Timed where
  step o s answer t := s.readings.Admits o.2 answer ∧
    ∃ w, services.step o.2 s.world answer w ∧ t = s.next o.1 o.2 answer w

/-- An observation that tells a reconciler something new about its current snapshot is not behind
it, if that has Control's time; and Control's clock, when a cancellation of a running run reads
it, is not behind the current snapshot, if that has an observation's time. -/
def InStep (call : ControlCall) (s : Timed) : (o : Request) → Answer o → Prop
  | .observe _ _, some observation => ∀ stored, call.step = .reconcile stored →
    tag s.world.snapshots stored.record.runId = some stored.revision →
    stored.revision ∉ s.observed →
    observation.executionState = .terminal ∨ stored.record.stage ≠ observation.stage →
    stored.record.updatedAt ≤ observation.observedAt
  | .clock, (now : ℤ) => ∀ runId, call.step = .cancel runId →
    ∀ version, current s.world.snapshots runId = some version →
    version.value.runState = .running → version.etag ∈ s.observed → version.value.updatedAt ≤ now
  | _, _ => True

def inStep : Machine (ControlCall × Request) (fun o => Answer o.2) Timed where
  step o s answer t := InStep o.1 s o.2 answer ∧ clocked.step o s answer t

/-- A call whose every request carries the call. -/
def takeTimed (sha256 : String → String) (call : ControlCall) :
    Prog (ControlCall × Request) (fun o => Answer o.2) LifecycleError Outcome :=
  (take sha256 call).embed (fun o => (call, o)) (fun _ answer => answer) id

abbrev TimedConfig :=
  Config (ControlCall × Request) (fun o => Answer o.2) LifecycleError Outcome ControlCall Timed

abbrev TimedEvent := Event (ControlCall × Request) (fun o => Answer o.2) LifecycleError Outcome
  ControlCall

/-- Reconcilers are given snapshots that came from the store. -/
def Given (cfg : TimedConfig) : TimedEvent → Prop
  | .issued _ call => ∀ stored, call.step = .reconcile stored → Genuine cfg.state.world stored
  | _ => True

end Clocks

section Invariant

/-- What is known of the time of a snapshot. -/
structure Stamped (s : Timed) (etag : ℕ) (record : RunRecord) : Prop where
  created : record.runState = .queued → record.updatedAt = record.createdAt
  state : record.runState ≠ .retrying
  terminalAt : record.runState ≠ .terminal → record.terminalAt = none
  control : record.runState ≠ .queued → etag ∉ s.observed → record.updatedAt ≤ s.readings.control
  observed : etag ∈ s.observed → ∃ handle, record.backendHandle = some handle ∧
    record.updatedAt ≤ s.readings.observed handle

structure TimesKept (s : Timed) : Prop where
  ordered : TimesInOrder s.world
  writes : ∀ etag write, recorded s.world.snapshots etag = some write →
    ∃ record, write.value = some record ∧ record.runId = write.name ∧ Stamped s etag record
  marked : ∀ etag ∈ s.observed, etag < s.world.snapshots.length

structure Later (s t : Timed) : Prop where
  snapshots : s.world.snapshots <:+ t.world.snapshots
  control : s.readings.control ≤ t.readings.control
  observed : ∀ handle, s.readings.observed handle ≤ t.readings.observed handle
  marked : ∀ etag < s.world.snapshots.length, etag ∈ t.observed ↔ etag ∈ s.observed

theorem Later.refl (s : Timed) : Later s s :=
  ⟨List.suffix_refl _, le_refl _, fun _ => le_refl _, fun _ _ => Iff.rfl⟩

theorem Later.trans {a b c : Timed} (hab : Later a b) (hbc : Later b c) : Later a c := by
  refine ⟨hab.snapshots.trans hbc.snapshots, hab.control.trans hbc.control,
    fun handle => (hab.observed handle).trans (hbc.observed handle), ?_⟩
  intro etag hetag
  rw [hbc.marked etag (hetag.trans_le hab.snapshots.length_le), hab.marked etag hetag]

def timesDiscipline : Discipline Timed where
  inv := TimesKept
  le := Later
  refl := Later.refl
  trans _ _ _ := Later.trans

variable {s t : Timed} {etag : ℕ} {record : RunRecord}

theorem Stamped.mono (h : Stamped s etag record) (hle : Later s t)
    (hetag : etag < s.world.snapshots.length) : Stamped t etag record := by
  refine ⟨h.created, h.state, h.terminalAt, ?_, ?_⟩
  · intro hqueued hmarked
    rw [hle.marked etag hetag] at hmarked
    exact (h.control hqueued hmarked).trans hle.control
  · intro hmarked
    rw [hle.marked etag hetag] at hmarked
    obtain ⟨handle, hhandle, htime⟩ := h.observed hmarked
    exact ⟨handle, hhandle, htime.trans (hle.observed handle)⟩

theorem TimesKept.of_recorded (hinv : TimesKept s) {author : ℕ} {name : String}
    (h : recorded s.world.snapshots etag = some ⟨name, some record, author⟩) :
    record.runId = name ∧ Stamped s etag record := by
  obtain ⟨other, hvalue, hname, hstamped⟩ := hinv.writes _ _ h
  obtain rfl := Option.some.inj hvalue
  exact ⟨hname, hstamped⟩

theorem TimesKept.of_genuine (hinv : TimesKept s) {stored : StoredRun}
    (h : Genuine s.world stored) : Stamped s stored.revision stored.record := by
  obtain ⟨author, hrecorded⟩ := h
  exact (hinv.of_recorded hrecorded).2

theorem Genuine.mono {w later : World} {stored : StoredRun} (h : Genuine w stored)
    (hle : w.snapshots <:+ later.snapshots) : Genuine later stored := by
  obtain ⟨author, hrecorded⟩ := h
  exact ⟨author, recorded_mono hle hrecorded⟩

/-- A snapshot that is current was current when it was read, or any time since. -/
theorem Genuine.current_of_tag {w later : World} {stored : StoredRun} (h : Genuine w stored)
    (hle : w.snapshots <:+ later.snapshots)
    (htag : tag later.snapshots stored.record.runId = some stored.revision) :
    current w.snapshots stored.record.runId = some ⟨stored.revision, stored.record⟩ := by
  obtain ⟨author, hrecorded⟩ := h
  obtain ⟨⟨etag, value⟩, hcurrent, rfl⟩ := Option.map_eq_some_iff.mp htag
  have hold := current_of_old hle hcurrent (recorded_lt hrecorded)
  obtain ⟨other, hother⟩ := recorded_of_current hold
  rw [hrecorded] at hother
  simp only [Option.some.injEq, Write.mk.injEq] at hother
  rw [hold, hother.2.1]

end Invariant

section Histories

variable {history : History String RunRecord} {name : String}

theorem exists_recorded {write : Write String RunRecord} (h : write ∈ history) :
    ∃ etag, recorded history etag = some write := by
  induction history with
  | nil => simp at h
  | cons last older ih =>
    rcases List.mem_cons.mp h with rfl | hold
    · exact ⟨older.length, by simp [recorded]⟩
    · obtain ⟨etag, hrecorded⟩ := ih hold
      have hlt := recorded_lt hrecorded
      exact ⟨etag, by simp [recorded, Nat.ne_of_lt hlt, hrecorded]⟩

/-- Every snapshot of a run is its current one, or in time for it. -/
theorem inTime_current {w : World} (hordered : TimesInOrder w) {version : Version RunRecord}
    (h : current w.snapshots name = some version) {write : Write String RunRecord}
    (hwrite : write ∈ w.snapshots) (hname : write.name = name) {previous : RunRecord}
    (hvalue : write.value = some previous) :
    previous = version.value ∨ InTime version.value previous := by
  obtain ⟨snapshots, attempts, executions, ended⟩ := w
  unfold TimesInOrder at hordered
  dsimp only at *
  induction snapshots with
  | nil => simp at hwrite
  | cons last older ih =>
    rw [List.pairwise_cons] at hordered
    by_cases hlast : last.name = name
    · subst hlast
      rw [current_cons_self, Option.map_eq_some_iff] at h
      obtain ⟨value, hcurrent, rfl⟩ := h
      rcases List.mem_cons.mp hwrite with rfl | hold
      · rw [hvalue] at hcurrent
        exact .inl (Option.some.inj hcurrent)
      · exact .inr (hordered.1 write hold hname.symm value previous hcurrent hvalue)
    · rw [current_cons_of_ne hlast] at h
      rcases List.mem_cons.mp hwrite with rfl | hold
      · exact absurd hname hlast
      · exact ih hordered.2 h hold

end Histories

section Steps

/-- The snapshot that a call is about to save. -/
structure Replaces (call : ControlCall) (s : Timed) (stored : StoredRun) (record : RunRecord) :
    Prop where
  genuine : Genuine s.world stored
  updatedAt : tag s.world.snapshots stored.record.runId = some stored.revision →
    stored.record.updatedAt ≤ record.updatedAt
  terminalAt : record.terminalAt = stored.record.terminalAt ∨
    stored.record.terminalAt = none ∧ record.terminalAt = some record.updatedAt
  state : record.runState ≠ .queued ∧ record.runState ≠ .retrying
  unended : record.runState ≠ .terminal → record.terminalAt = none
  control : call.observes = false → record.updatedAt ≤ s.readings.control
  observed : call.observes = true → ∃ handle, record.backendHandle = some handle ∧
    record.updatedAt ≤ s.readings.observed handle

/-- What a call has to know when it makes a request. -/
def Entitled (call : ControlCall) : Request → Timed → Prop
  | .claim record, _ => record.runState = .queued ∧ record.updatedAt = record.createdAt ∧
    record.terminalAt = none ∧ call.observes = false
  | .save stored record, s => Replaces call s stored record
  | _, _ => True

theorem sameRunId {first second : RunRecord} (h : sameRunIdentity first second = true) :
    second.runId = first.runId := by
  have hidentity := sameRunIdentity_iff.mp h
  simp only [RunRecord.identity, RunIdentity.mk.injEq] at hidentity
  exact hidentity.1.symm

theorem Readings.Admits.le {readings : Readings} {o : Request} {answer : Answer o}
    (h : readings.Admits o answer) :
    readings.control ≤ (readings.read o answer).control ∧
      ∀ handle, readings.observed handle ≤ (readings.read o answer).observed handle := by
  cases o with
  | clock => exact ⟨h, fun _ => le_refl _⟩
  | observe plan handle =>
    cases answer with
    | none => exact ⟨le_refl _, fun _ => le_refl _⟩
    | some observation =>
      refine ⟨le_refl _, ?_⟩
      intro other
      by_cases hother : other = handle
      · subst hother
        have htime : readings.observed other ≤ observation.observedAt := h
        simpa [Readings.read] using htime
      · simp [Readings.read, Function.update_of_ne hother]
  | claim record => exact ⟨le_refl _, fun _ => le_refl _⟩
  | get runId => exact ⟨le_refl _, fun _ => le_refl _⟩
  | save stored record => exact ⟨le_refl _, fun _ => le_refl _⟩
  | appendAttempt attempt => exact ⟨le_refl _, fun _ => le_refl _⟩
  | submitOrAdopt plan runId attemptId trigger => exact ⟨le_refl _, fun _ => le_refl _⟩
  | cancel plan handle => exact ⟨le_refl _, fun _ => le_refl _⟩

variable {s : Timed} {call : ControlCall} {o : Request} {answer : Answer o} {w : World}

/-- A step that saves nothing. -/
theorem TimesKept.next_same (hinv : TimesKept s) (hadmits : s.readings.Admits o answer)
    (hsame : w.snapshots = s.world.snapshots) :
    TimesKept (s.next call o answer w) ∧ Later s (s.next call o answer w) := by
  have hmarks : (s.next call o answer w).observed = s.observed := by
    simp [Timed.next, hsame]
  have hle : Later s (s.next call o answer w) := by
    refine ⟨?_, hadmits.le.1, hadmits.le.2, ?_⟩
    · show s.world.snapshots <:+ w.snapshots
      rw [hsame]
    · intro etag _
      rw [hmarks]
  refine ⟨⟨?_, ?_, ?_⟩, hle⟩
  · show w.snapshots.Pairwise _
    rw [hsame]
    exact hinv.ordered
  · intro etag write hrecorded
    have hrecorded : recorded w.snapshots etag = some write := hrecorded
    rw [hsame] at hrecorded
    obtain ⟨record, hvalue, hname, hstamped⟩ := hinv.writes etag write hrecorded
    exact ⟨record, hvalue, hname, hstamped.mono hle (recorded_lt hrecorded)⟩
  · intro etag hetag
    rw [hmarks] at hetag
    show etag < w.snapshots.length
    rw [hsame]
    exact hinv.marked etag hetag

/-- A step that saves a snapshot in time for all of its run. -/
theorem TimesKept.next_saved (hinv : TimesKept s) (hadmits : s.readings.Admits o answer)
    {record : RunRecord}
    (hsaved : w.snapshots = ⟨record.runId, some record, 0⟩ :: s.world.snapshots)
    (htime : ∀ write ∈ s.world.snapshots, write.name = record.runId →
      ∀ previous, write.value = some previous → InTime record previous)
    (hstamped : Stamped (s.next call o answer w) s.world.snapshots.length record) :
    TimesKept (s.next call o answer w) ∧ Later s (s.next call o answer w) := by
  have hlength : s.world.snapshots.length < w.snapshots.length := by
    rw [hsaved, List.length_cons]
    omega
  have hle : Later s (s.next call o answer w) := by
    refine ⟨?_, hadmits.le.1, hadmits.le.2, ?_⟩
    · show s.world.snapshots <:+ w.snapshots
      rw [hsaved]
      exact List.suffix_cons _ _
    · intro etag hetag
      unfold Timed.next
      dsimp only
      split
      · rw [List.mem_cons]
        exact or_iff_right (Nat.ne_of_lt hetag)
      · exact Iff.rfl
  refine ⟨⟨?_, ?_, ?_⟩, hle⟩
  · show w.snapshots.Pairwise _
    rw [hsaved, List.pairwise_cons]
    refine ⟨?_, hinv.ordered⟩
    intro write hwrite hname later previous hlater hprevious
    obtain rfl := Option.some.inj hlater
    exact htime write hwrite hname.symm previous hprevious
  · intro etag write hrecorded
    have hrecorded : recorded w.snapshots etag = some write := hrecorded
    rw [hsaved] at hrecorded
    simp only [recorded] at hrecorded
    split at hrecorded
    next hnew =>
      obtain rfl := Option.some.inj hrecorded
      rw [hnew]
      exact ⟨record, rfl, rfl, hstamped⟩
    · obtain ⟨old, hvalue, hname, hold⟩ := hinv.writes etag write hrecorded
      exact ⟨old, hvalue, hname, hold.mono hle (recorded_lt hrecorded)⟩
  · intro etag hetag
    show etag < w.snapshots.length
    unfold Timed.next at hetag
    dsimp only at hetag
    split at hetag
    · rcases List.mem_cons.mp hetag with rfl | hold
      · exact hlength
      · exact (hinv.marked etag hold).trans hlength
    · exact (hinv.marked etag hetag).trans hlength

theorem TimesKept.values (hinv : TimesKept s) :
    ∀ write ∈ s.world.snapshots, write.value ≠ none := by
  intro write hwrite
  obtain ⟨etag, hrecorded⟩ := exists_recorded hwrite
  obtain ⟨record, hvalue, -, -⟩ := hinv.writes etag write hrecorded
  simp [hvalue]

theorem Replaces.inTime {stored : StoredRun} {record : RunRecord} (hinv : TimesKept s)
    (h : Replaces call s stored record) (hname : record.runId = stored.record.runId)
    (htag : tag s.world.snapshots record.runId = some stored.revision)
    {write : Write String RunRecord} (hwrite : write ∈ s.world.snapshots)
    (hwriteName : write.name = record.runId) {previous : RunRecord}
    (hvalue : write.value = some previous) : InTime record previous := by
  rw [hname] at htag hwriteName
  have hnew : stored.record.updatedAt ≤ record.updatedAt := h.updatedAt htag
  have hcurrent := h.genuine.current_of_tag (List.suffix_refl _) htag
  have hold : previous.updatedAt ≤ stored.record.updatedAt := by
    rcases inTime_current hinv.ordered hcurrent hwrite hwriteName hvalue with rfl | hold
    · exact le_refl _
    · exact hold.updatedAt
  refine ⟨hold.trans hnew, ?_⟩
  intro instant hinstant hopen
  rcases h.terminalAt with hsame | ⟨-, hnow⟩
  · rw [hsame] at hinstant
    rcases inTime_current hinv.ordered hcurrent hwrite hwriteName hvalue with rfl | hold'
    · have hopen : stored.record.terminalAt = none := hopen
      rw [hopen] at hinstant
      cases hinstant
    · exact hold'.terminalAt instant hinstant hopen
  · rw [hnow] at hinstant
    obtain rfl := Option.some.inj hinstant
    exact hold.trans hnew

/-- Every request that a call may make keeps the times in order. -/
theorem TimesKept.step (hinv : TimesKept s) (hasked : Entitled call o s)
    (hadmits : s.readings.Admits o answer) (hstep : services.step o s.world answer w) :
    TimesKept (s.next call o answer w) ∧ Later s (s.next call o answer w) := by
  have hworld : w = s.world ∨ ∃ oracle, w = (serve oracle o s.world).2 := by
    rcases hstep with ⟨oracle, hserved⟩ | ⟨-, hworld⟩
    · exact .inr ⟨oracle, by rw [hserved]⟩
    · exact hworld
  rcases hworld with rfl | ⟨oracle, rfl⟩
  · exact hinv.next_same hadmits rfl
  rcases serve_snapshots oracle o s.world with hsame | ⟨record, hsaved, hrequest⟩
  · exact hinv.next_same hadmits hsame
  · have hnew : s.world.snapshots.length ∉ s.observed :=
      fun hmem => Nat.lt_irrefl _ (hinv.marked _ hmem)
    rcases hrequest with ⟨rfl, hnone⟩ | ⟨stored, rfl, hsame, htag⟩
    · obtain ⟨hqueued, hcreated, hopen, hobserves⟩ := hasked
      apply hinv.next_saved hadmits hsaved
      · intro write hwrite hwriteName
        exact absurd hwriteName (name_ne_of_current_none hinv.values hnone write hwrite)
      · refine ⟨fun _ => hcreated, ?_, fun _ => hopen, fun h => absurd hqueued h, ?_⟩
        · rw [hqueued]
          simp
        · intro hmem
          simp [Timed.next, hobserves, hnew] at hmem
    · apply hinv.next_saved hadmits hsaved
      · intro write hwrite hwriteName previous hvalue
        exact hasked.inTime hinv (sameRunId hsame) htag hwrite hwriteName hvalue
      · have hlonger : s.world.snapshots.length <
            (serve oracle (.save stored record) s.world).2.snapshots.length := by
          rw [hsaved, List.length_cons]
          omega
        refine ⟨fun h => absurd h hasked.state.1, hasked.state.2, hasked.unended, ?_, ?_⟩
        · intro _ hmem
          cases hobserves : call.observes with
          | true => simp [Timed.next, hobserves, hlonger] at hmem
          | false => exact hasked.control hobserves
        · intro hmem
          cases hobserves : call.observes with
          | true => exact hasked.observed hobserves
          | false => simp [Timed.next, hobserves, hnew] at hmem

end Steps

section Programs

variable {sha256 : String → String} {call : ControlCall} {s : Timed} {α β : Type}

/-- The services as one call meets them. -/
def during (call : ControlCall) : Machine Request Answer Timed where
  step o s answer t := inStep.step (call, o) s answer t

/-- Safety of a program of a call; its end promises nothing. -/
def Timely (call : ControlCall) (p : Action α) (s : Timed) : Prop :=
  Safe (during call) timesDiscipline (fun _ _ => True) (fun _ _ => True) p s

/-- What a call learns from an answer. -/
structure AnsweredAt (call : ControlCall) (s t u : Timed) (o : Request) (answer : Answer o) :
    Prop where
  asked : Later s t
  before : TimesKept t
  inStep : InStep call t o answer
  admits : t.readings.Admits o answer
  later : Later t u
  after : TimesKept u
  readings : u.readings = t.readings.read o answer
  served : services.step o t.world answer u.world

theorem timely_request {o : Request} {next : Answer o → Action α}
    (hasked : ∀ t, Later s t → TimesKept t → Entitled call o t)
    (hnext : ∀ t u answer, AnsweredAt call s t u o answer → Timely call (next answer) u) :
    Timely call (.call o next) s := by
  intro t ht hinv answer u hstep
  obtain ⟨hinStep, hadmits, w, hserved, rfl⟩ := hstep
  obtain ⟨hinv', hle⟩ := hinv.step (hasked t ht hinv) hadmits hserved
  exact ⟨hinv', hle, hnext t _ answer ⟨ht, hinv, hinStep, hadmits, hle, hinv', rfl, hserved⟩⟩

/-- The snapshot of a transition out of one that came from the store. -/
theorem replaces_of_transition {stored : StoredRun} {updated : RunRecord} {state : HostedRunState}
    {now : ℤ} {changes : RunChanges} {etag : ℕ}
    (h : transitionRun sha256 stored.record state now changes = .ok updated)
    (hstamped : Stamped s etag stored.record) (hgenuine : Genuine s.world stored)
    (hstate : state ≠ .queued ∧ state ≠ .retrying)
    (htime : stored.record.runState ≠ .queued →
      tag s.world.snapshots stored.record.runId = some stored.revision →
      stored.record.updatedAt ≤ now)
    (hcontrol : call.observes = false → now ≤ s.readings.control)
    (hobserved : call.observes = true → ∃ handle, updated.backendHandle = some handle ∧
      now ≤ s.readings.observed handle) : Replaces call s stored updated := by
  obtain ⟨hpermitted, rfl⟩ := transitionRun_eq_ok_iff.mp h
  have hcreated : stored.record.createdAt ≤ now := by
    have hvalid := hpermitted.valid
    unfold validateRunRecord at hvalid
    exact not_lt.mp (Execution.guard_eq_ok hvalid).1
  refine ⟨hgenuine, ?_, ?_, hstate, ?_, hcontrol, hobserved⟩
  · intro htag
    by_cases hqueued : stored.record.runState = .queued
    · rw [hstamped.created hqueued]
      exact hcreated
    · exact htime hqueued htag
  · simp only [RunRecord.changed]
    split
    next hended =>
      rw [Bool.and_eq_true, Option.isNone_iff_eq_none] at hended
      exact .inr ⟨hended.2, rfl⟩
    · exact .inl rfl
  · intro hopen
    have hopen : state ≠ .terminal := hopen
    have hunended : stored.record.runState ≠ .terminal := by
      intro hterminal
      have hallowed := hpermitted.runState
      rw [hterminal] at hallowed
      exact hopen (by simpa [allowedStates] using hallowed)
    simp [RunRecord.changed, hopen, hstamped.terminalAt hunended]

/-- A dispatch of a queued run. -/
theorem timely_submitAttempt {stored : StoredRun} {plan : ExecutionPlan} {now : ℤ}
    {attemptNumber : ℕ} {attemptId : String} (hcontrols : call.observes = false)
    (hqueued : stored.record.runState = .queued) (hgenuine : Genuine s.world stored)
    (hnow : now ≤ s.readings.control) :
    Timely call (submitAttempt sha256 stored plan now attemptNumber attemptId) s := by
  apply timely_request
  · intros
    trivial
  · intro t u appended hanswered
    apply safe_bind safe_liftStore
    intro _ v hv
    apply timely_request
    · intros
      trivial
    · intro x y submitted hsubmitted
      cases submitted with
      | none => trivial
      | some handle =>
        dsimp only
        split
        · trivial
        · apply safe_liftContract
          intro updated hupdated
          apply timely_request
          · intro z hz hinv
            have hle : Later s z := ((hanswered.asked.trans hanswered.later).trans hv).trans
              ((hsubmitted.asked.trans hsubmitted.later).trans hz)
            have hgenuine' := Genuine.mono hgenuine hle.snapshots
            apply replaces_of_transition hupdated (hinv.of_genuine hgenuine') hgenuine'
            · simp
            · intro hne
              exact absurd hqueued hne
            · intro _
              exact hnow.trans hle.control
            · intro hobserves
              rw [hcontrols] at hobserves
              cases hobserves
          · intro z z' saved _
            exact safe_liftStore

theorem timely_dispatchStoredRunAttempt {stored : StoredRun} {plan : ExecutionPlan} {now : ℤ}
    (hcontrols : call.observes = false) (hgenuine : Genuine s.world stored)
    (hstate : stored.record.runState ≠ .retrying) (hnow : now ≤ s.readings.control) :
    Timely call (dispatchStoredRunAttempt sha256 stored plan now) s := by
  simp only [dispatchStoredRunAttempt]
  split
  · trivial
  · split
    · trivial
    · split
      · trivial
      next hdispatchable =>
        have hqueued : stored.record.runState = .queued := by
          simpa [hstate] using hdispatchable
        split
        · trivial
        · apply safe_liftContract
          intro attemptId _
          exact timely_submitAttempt hcontrols hqueued hgenuine hnow

theorem TimesKept.genuine_of_current (hinv : TimesKept s) {runId : String}
    {version : Version RunRecord} (h : current s.world.snapshots runId = some version) :
    version.value.runId = runId ∧ Genuine s.world ⟨version.value, version.etag⟩ := by
  obtain ⟨author, hrecorded⟩ := recorded_of_current h
  obtain ⟨hname, -⟩ := hinv.of_recorded hrecorded
  refine ⟨hname, author, ?_⟩
  rw [hname]
  exact hrecorded

theorem genuine_of_claimed {t u : Timed} {record : RunRecord} {claim : RunClaim}
    (h : AnsweredAt call s t u (.claim record) (.ok claim)) : Genuine u.world claim.stored := by
  rcases h.served with ⟨oracle, hserved⟩ | ⟨⟨message, hfailed⟩, -⟩
  · obtain ⟨⟨author, hrecorded⟩, -⟩ := recorded_of_claimed hserved
    obtain ⟨hname, -⟩ := h.after.of_recorded hrecorded
    exact ⟨author, hname ▸ hrecorded⟩
  · cases hfailed

theorem timely_dispatchRunAttempt {submission : RunSubmission} {plan : ExecutionPlan} {now : ℤ}
    (hcontrols : call.observes = false) (hnow : now ≤ s.readings.control) :
    Timely call (dispatchRunAttempt sha256 submission plan now) s := by
  apply safe_liftContract
  intro _ _
  apply timely_request
  · intros
    exact ⟨rfl, rfl, rfl, hcontrols⟩
  · intro t u claimed hclaimed
    cases claimed with
    | error e => trivial
    | ok claim =>
      have hgenuine := genuine_of_claimed hclaimed
      show Timely call (ite _ _ _) u
      split
      · trivial
      · apply timely_dispatchStoredRunAttempt hcontrols hgenuine
        · exact (hclaimed.after.of_genuine hgenuine).state
        · exact hnow.trans (hclaimed.asked.trans hclaimed.later).control

/-- Once Control's clock was read, its reading is known. -/
theorem AnsweredAt.now_le {t u : Timed} {now : ℤ} (h : AnsweredAt call s t u .clock now) :
    now ≤ u.readings.control := by
  rw [h.readings]
  exact le_refl _

theorem timely_start {registry : Registry} {submission : RunSubmission}
    (hcontrols : call.observes = false) : Timely call (start sha256 registry submission) s := by
  apply safe_liftRegistry
  intro plan _
  apply safe_liftRegistry
  intro _ _
  apply timely_request
  · intros
    trivial
  · intro t u now hnow
    apply safe_bind
    · refine Safe.tryCatch (timely_dispatchRunAttempt hcontrols hnow.now_le) ?_
      intro e v _ _
      show Timely call (recoverStart sha256 submission e) v
      unfold recoverStart
      split
      · trivial
      · apply timely_request
        · intros
          trivial
        · intro x y found _
          apply safe_bind safe_liftStore
          intro recovered z _
          split
          · trivial
          · split <;> trivial
      all_goals trivial
    · intro stored v _
      apply safe_liftContract
      intros
      trivial

/-- What a reconciler saves has the observation's time, and only news are saved. -/
theorem observedRecord_news {record updated : RunRecord} {observation : BackendObservation}
    (hstate : record.runState ∉ [HostedRunState.queued, .retrying])
    (h : observedRecord sha256 record observation = .ok (some updated)) :
    (observation.executionState = .terminal ∨ record.stage ≠ observation.stage) ∧
      ∃ state changes, (state ≠ .queued ∧ state ≠ .retrying) ∧
        changes.backendHandle = none ∧
        transitionRun sha256 record state observation.observedAt changes = .ok updated := by
  unfold observedRecord at h
  split at h
  next hterminal =>
    obtain ⟨next, hnext, h⟩ := Execution.bind_eq_ok h
    cases h
    exact ⟨.inl hterminal, .terminal, _, by simp, rfl, hnext⟩
  · split at h
    · cases h
    next hopen =>
      have hkept : (if record.runState = .canceling then HostedRunState.canceling else .running) =
          record.runState := by
        cases hrunState : record.runState <;> simp_all
      dsimp only at h
      rw [hkept] at h
      split at h
      · cases h
      next hnews =>
        obtain ⟨next, hnext, h⟩ := Execution.bind_eq_ok h
        cases h
        refine ⟨.inr ?_, record.runState, _, ?_, rfl, hnext⟩
        · simpa using hnews
        · simpa using hstate

theorem observes_of_reconcile {stored : StoredRun} (hcall : call.step = .reconcile stored) :
    call.observes = decide (stored.record.runState ∉ [HostedRunState.queued, .retrying]) := by
  unfold ControlCall.observes
  rw [hcall]

/-- An observation is not behind the snapshot that it leads to replace. -/
theorem observedAt_ge {t u : Timed} {stored : StoredRun} {plan : ExecutionPlan}
    {handle : BackendHandle} {observation : BackendObservation}
    (h : AnsweredAt call s t u (.observe plan handle) (some observation))
    (hcall : call.step = .reconcile stored) (hgenuine : Genuine t.world stored)
    (hhandle : stored.record.backendHandle = some handle)
    (hnews : observation.executionState = .terminal ∨ stored.record.stage ≠ observation.stage)
    (htag : tag t.world.snapshots stored.record.runId = some stored.revision) :
    stored.record.updatedAt ≤ observation.observedAt := by
  by_cases hmarked : stored.revision ∈ t.observed
  · obtain ⟨other, hother, htime⟩ := (h.before.of_genuine hgenuine).observed hmarked
    rw [hhandle] at hother
    obtain rfl := Option.some.inj hother
    have hadmits : t.readings.observed handle ≤ observation.observedAt := h.admits
    exact WithBot.coe_le_coe.mp (htime.trans hadmits)
  · exact h.inStep stored hcall htag hmarked hnews

theorem timely_observeStored {stored : StoredRun} {plan : ExecutionPlan} {handle : BackendHandle}
    (hcall : call.step = .reconcile stored)
    (hstate : stored.record.runState ∉ [HostedRunState.queued, .retrying])
    (hgenuine : Genuine s.world stored) (hhandle : stored.record.backendHandle = some handle) :
    Timely call (observeStored sha256 stored plan handle) s := by
  apply timely_request
  · intros
    trivial
  · intro t u observed hobserved
    cases observed with
    | none => trivial
    | some observation =>
      apply safe_liftContract
      intro updated hupdated
      cases updated with
      | none => trivial
      | some updated =>
        show Timely call (ite _ _ _) u
        split
        · trivial
        · obtain ⟨hnews, state, changes, hnext, hsame, htransition⟩ :=
            observedRecord_news hstate hupdated
          have hgenuineT := hgenuine.mono hobserved.asked.snapshots
          apply timely_request
          · intro z hz hinv
            have hgenuineZ := (hgenuineT.mono hobserved.later.snapshots).mono hz.snapshots
            apply replaces_of_transition htransition (hinv.of_genuine hgenuineZ) hgenuineZ hnext
            · intro _ htag
              have hcurrent := hgenuineT.current_of_tag
                (hobserved.later.snapshots.trans hz.snapshots) htag
              exact observedAt_ge hobserved hcall hgenuineT hhandle hnews (by simp [tag, hcurrent])
            · intro hobserves
              rw [observes_of_reconcile hcall, decide_eq_false_iff_not] at hobserves
              exact absurd hstate hobserves
            · intro _
              obtain rfl := transitionRun_eq_ok htransition
              refine ⟨handle, by simp [RunRecord.changed, hsame, hhandle], ?_⟩
              have hread : observation.observedAt ≤ u.readings.observed handle := by
                rw [hobserved.readings]
                simp [Readings.read]
              exact hread.trans (hz.observed handle)
          · intro z z' saved _
            exact safe_liftStore

theorem timely_reconcileStored {registry : Registry} {stored : StoredRun}
    (hcall : call.step = .reconcile stored) (hinv : TimesKept s)
    (hgenuine : Genuine s.world stored) :
    Timely call (reconcileStored sha256 registry stored) s := by
  simp only [reconcileStored]
  split
  · trivial
  · apply safe_liftRegistry
    intro plan _
    split
    next hqueued =>
      have hcontrols : call.observes = false := by
        rw [observes_of_reconcile hcall, decide_eq_false_iff_not]
        exact not_not.mpr hqueued
      apply timely_request
      · intros
        trivial
      · intro t u now hnow
        apply timely_dispatchStoredRunAttempt hcontrols
        · exact (hgenuine.mono hnow.asked.snapshots).mono hnow.later.snapshots
        · exact (hinv.of_genuine hgenuine).state
        · exact hnow.now_le
    next hstate =>
      split
      · split <;> trivial
      next handle hhandle =>
        split
        · apply timely_request
          · intros
            trivial
          · intro t u canceled hcanceled
            cases canceled with
            | none => trivial
            | some _ =>
              exact timely_observeStored hcall hstate
                ((hgenuine.mono hcanceled.asked.snapshots).mono hcanceled.later.snapshots) hhandle
        · exact timely_observeStored hcall hstate hgenuine hhandle

theorem timely_saveCancellation {stored : StoredRun} {record : RunRecord}
    (hasked : ∀ t, Later s t → TimesKept t → Replaces call t stored record) :
    Timely call (saveCancellation stored record) s :=
  safe_saveCancellation fun _ hnext => timely_request hasked fun _ u saved _ => hnext saved u

/-- A run that was read came from the store. -/
theorem safe_requireRun_genuine {runId : String} :
    Safe (during call) timesDiscipline
      (fun stored t => Genuine t.world stored ∧ stored.record.runId = runId ∧
        stored.record.runState ≠ .retrying) (fun _ _ => True) (requireRun runId) s := by
  intro t _ hinv answer u hstep
  obtain ⟨-, hadmits, w, hserved, rfl⟩ := hstep
  have hasked : Entitled call (.get runId) t := trivial
  obtain ⟨hinv', hle⟩ := hinv.step hasked hadmits hserved
  refine ⟨hinv', hle, ?_⟩
  rcases hserved with ⟨oracle, hanswer⟩ | ⟨⟨message, rfl⟩, -⟩
  · obtain ⟨rfl, rfl⟩ := Prod.mk.inj hanswer
    cases hcurrent : current t.world.snapshots runId with
    | none => trivial
    | some version =>
      obtain ⟨hname, hgenuine⟩ := hinv.genuine_of_current hcurrent
      exact ⟨hgenuine, hname, (hinv.of_genuine hgenuine).state⟩
  · trivial

/-- Control's clock is not behind the running snapshot that a cancellation replaces. -/
theorem now_ge {t u : Timed} {runId : String} {stored : StoredRun} {now : ℤ}
    (h : AnsweredAt call s t u .clock now) (hcall : call.step = .cancel runId)
    (hrunId : stored.record.runId = runId) (hgenuine : Genuine t.world stored)
    (hrunning : stored.record.runState = .running)
    (hcurrent : current t.world.snapshots stored.record.runId =
      some ⟨stored.revision, stored.record⟩) : stored.record.updatedAt ≤ now := by
  by_cases hmarked : stored.revision ∈ t.observed
  · rw [hrunId] at hcurrent
    exact h.inStep runId hcall _ hcurrent hrunning hmarked
  · have hqueued : stored.record.runState ≠ .queued := by simp [hrunning]
    have htime := (h.before.of_genuine hgenuine).control hqueued hmarked
    have hadmits : t.readings.control ≤ now := h.admits
    exact WithBot.coe_le_coe.mp (htime.trans hadmits)

theorem observes_of_cancel {runId : String} (hcall : call.step = .cancel runId) :
    call.observes = false := by
  unfold ControlCall.observes
  rw [hcall]

theorem replaces_of_cancellation {t u z : Timed} {runId : String} {stored : StoredRun} {now : ℤ}
    {updated : RunRecord} {state : HostedRunState} {changes : RunChanges}
    (h : AnsweredAt call s t u .clock now) (hcall : call.step = .cancel runId)
    (hrunId : stored.record.runId = runId) (hgenuine : Genuine s.world stored)
    (hstate : stored.record.runState = .queued ∨ stored.record.runState = .running)
    (hnext : state ≠ .queued ∧ state ≠ .retrying)
    (htransition : transitionRun sha256 stored.record state now changes = .ok updated)
    (hz : Later u z) (hinv : TimesKept z) : Replaces call z stored updated := by
  have hgenuineT := hgenuine.mono h.asked.snapshots
  have hgenuineZ := (hgenuineT.mono h.later.snapshots).mono hz.snapshots
  apply replaces_of_transition htransition (hinv.of_genuine hgenuineZ) hgenuineZ hnext
  · intro hqueued htag
    have hrunning := hstate.resolve_left hqueued
    have hcurrent := hgenuineT.current_of_tag (h.later.snapshots.trans hz.snapshots) htag
    exact now_ge h hcall hrunId hgenuineT hrunning hcurrent
  · intro _
    exact h.now_le.trans hz.control
  · intro hobserves
    rw [observes_of_cancel hcall] at hobserves
    cases hobserves

theorem timely_markCanceling {runId : String} {stored : StoredRun}
    (hcall : call.step = .cancel runId) (hrunId : stored.record.runId = runId)
    (hgenuine : Genuine s.world stored)
    (hstate : stored.record.runState = .running ∨ stored.record.runState = .canceling) :
    Timely call (markCanceling sha256 stored) s := by
  unfold markCanceling
  split
  · trivial
  next hopen =>
    apply timely_request
    · intros
      trivial
    · intro t u now hnow
      apply safe_liftContract
      intro canceling hcanceling
      apply timely_saveCancellation
      intro z hz hinv
      exact replaces_of_cancellation hnow hcall hrunId hgenuine (.inr (hstate.resolve_right hopen))
        (by simp) hcanceling hz hinv

theorem timely_cancelOnce {registry : Registry} {runId : String}
    (hcall : call.step = .cancel runId) :
    Timely call (cancelOnce sha256 registry runId) s := by
  refine Safe.bind safe_requireRun_genuine ?_
  intro stored t _ hread
  obtain ⟨hgenuine, hrunId, hretrying⟩ := hread
  simp only
  split
  · apply safe_liftContract
    intros
    trivial
  next hopen =>
    split
    next hqueued =>
      apply timely_request
      · intros
        trivial
      · intro u v now hnow
        apply safe_liftContract
        intro canceled hcanceled
        apply safe_bind
        · apply timely_saveCancellation
          intro z hz hinv
          exact replaces_of_cancellation hnow hcall hrunId hgenuine (.inl hqueued) (by simp)
            hcanceled hz hinv
        · intro saved z _
          apply safe_liftContract
          intros
          trivial
    next hdispatched =>
      split
      · trivial
      · apply safe_bind
        · have hstate : stored.record.runState = .running ∨
              stored.record.runState = .canceling := by
            cases hrunState : stored.record.runState <;> simp_all
          exact timely_markCanceling hcall hrunId hgenuine hstate
        · intro marked u _
          apply safe_liftRegistry
          intro plan _
          split
          · trivial
          · apply timely_request
            · intros
              trivial
            · intro v z canceled _
              cases canceled <;> trivial

end Programs

section Runs

variable {sha256 : String → String} {events : List TimedEvent} {cfg : TimedConfig}

theorem timely_take {call : ControlCall} {s : Timed} (hinv : TimesKept s)
    (hgenuine : ∀ stored, call.step = .reconcile stored → Genuine s.world stored) :
    Timely call (take sha256 call) s := by
  unfold take
  split
  next submission hcall =>
    have hcontrols : call.observes = false := by
      unfold ControlCall.observes
      rw [hcall]
    exact safe_bind (timely_start hcontrols) (fun _ _ _ => trivial)
  next runId hcall => exact safe_bind (timely_cancelOnce hcall) (fun _ _ _ => trivial)
  next stored hcall =>
    exact safe_bind (timely_reconcileStored hcall hinv (hgenuine stored hcall))
      (fun _ _ _ => trivial)

/-- In every interleaving, with any failures and crashes, in which the two kinds of clocks keep
step, the times of the snapshots of every run are in order. -/
theorem times_in_order_when_inStep
    (run : Run inStep (takeTimed sha256) Given (Config.start Timed.empty) events cfg) :
    TimesInOrder cfg.state.world := by
  have hstart : TimesKept Timed.empty :=
    ⟨List.Pairwise.nil, by simp [Timed.empty, World.empty, recorded], by simp [Timed.empty]⟩
  have hbody : ∀ (cfg : TimedConfig) (i : ℕ) (call : ControlCall), Given cfg (.issued i call) →
      TimesKept cfg.state → Safe inStep timesDiscipline (fun _ _ => True)
        (fun (_ : LifecycleError) _ => True) (takeTimed sha256 call) cfg.state := by
    intro cfg i call hgiven hinv
    have hle : ∀ s t, timesDiscipline.le s t → timesDiscipline.le s t := fun _ _ h => h
    have hinv' : ∀ s, timesDiscipline.inv s → timesDiscipline.inv s := fun _ h => h
    have hstep : ∀ o s answer t, inStep.step (call, o) s answer t →
        (during call).step o s answer t ∧ (timesDiscipline.inv s → timesDiscipline.inv t →
          timesDiscipline.le s t → timesDiscipline.inv t ∧ timesDiscipline.le s t) :=
      fun _ _ _ _ h => ⟨h, fun _ hi hl => ⟨hi, hl⟩⟩
    exact (Safe.embed hle hinv' hstep (timely_take hinv hgiven)).weaken
      (fun _ _ _ _ => trivial) (fun _ _ _ _ => trivial)
  have hstable : ∀ {α : Type} (_ : ControlCall),
      Stable timesDiscipline (fun (_ : α) (_ : Timed) => True) := by
    intro α _ a s t _ _
    trivial
  have hsafe := run.poolSafe (D := timesDiscipline) (fun call => hstable call)
    (fun call => hstable call) hbody (PoolSafe.start hstart)
  exact hsafe.1.1.ordered

instance decidableAdmits (reading : WithBot ℤ) (now : ℤ) : Decidable (reading ≤ now) :=
  match reading with
  | none => isTrue bot_le
  | some time => decidable_of_iff (time ≤ now) WithBot.coe_le_coe.symm

/-- Services that answer every request, as long as their clocks and `check` allow it. -/
def answered (oracle : Timed → Oracle) (check : ControlCall → Timed → ℤ → Bool) :
    (o : ControlCall × Request) → Timed → Option (Answer o.2 × Timed)
  | (call, o), s =>
    if allowed call o s then
      some ((serve (oracle s) o s.world).1,
        s.next call o (serve (oracle s) o s.world).1 (serve (oracle s) o s.world).2)
    else none
where
  allowed (call : ControlCall) (o : Request) (s : Timed) : Bool :=
    match o with
    | .clock => decide (s.readings.control ≤ (oracle s).clock) && check call s (oracle s).clock
    | .observe _ handle =>
      decide (s.readings.observed handle ≤ (oracle s).observation.observedAt) &&
        check call s (oracle s).observation.observedAt
    | _ => true

theorem answered_eq_some {oracle : Timed → Oracle} {check : ControlCall → Timed → ℤ → Bool}
    {call : ControlCall} {o : Request} {s t : Timed} {answer : Answer o}
    (h : answered oracle check (call, o) s = some (answer, t)) :
    answered.allowed oracle check call o s = true ∧
      answer = (serve (oracle s) o s.world).1 ∧
      t = s.next call o answer (serve (oracle s) o s.world).2 := by
  have h : (if answered.allowed oracle check call o s = true then
      some ((serve (oracle s) o s.world).1,
        s.next call o (serve (oracle s) o s.world).1 (serve (oracle s) o s.world).2)
      else none) = some (answer, t) := h
  split at h
  next hallowed =>
    obtain ⟨rfl, rfl⟩ := Prod.mk.inj (Option.some.inj h)
    exact ⟨hallowed, rfl, rfl⟩
  · cases h

theorem clocked_of_answered {oracle : Timed → Oracle} {check : ControlCall → Timed → ℤ → Bool}
    (o : ControlCall × Request) (s : Timed) (answer : Answer o.2) (t : Timed)
    (h : answered oracle check o s = some (answer, t)) : clocked.step o s answer t := by
  obtain ⟨call, o⟩ := o
  obtain ⟨hallowed, rfl, rfl⟩ := answered_eq_some h
  refine ⟨?_, _, .inl ⟨oracle s, rfl⟩, rfl⟩
  cases o with
  | clock =>
    have hforward : s.readings.control ≤ (oracle s).clock :=
      of_decide_eq_true (Bool.and_eq_true_iff.mp hallowed).1
    exact hforward
  | observe plan handle =>
    have hforward : s.readings.observed handle ≤ (oracle s).observation.observedAt :=
      of_decide_eq_true (Bool.and_eq_true_iff.mp hallowed).1
    exact hforward
  | claim record => trivial
  | get runId => trivial
  | save stored record => trivial
  | appendAttempt attempt => trivial
  | submitOrAdopt plan runId attemptId trigger => trivial
  | cancel plan handle => trivial

/-- The reading is not behind any snapshot that the call may replace. -/
def notBehind (call : ControlCall) (s : Timed) (reading : ℤ) : Bool :=
  match call.step with
  | .start _ => true
  | .cancel runId => (current s.world.snapshots runId).all fun version =>
      decide (version.value.updatedAt ≤ reading)
  | .reconcile stored => decide (stored.record.updatedAt ≤ reading)

theorem inStep_of_answered {oracle : Timed → Oracle} (o : ControlCall × Request) (s : Timed)
    (answer : Answer o.2) (t : Timed) (h : answered oracle notBehind o s = some (answer, t)) :
    inStep.step o s answer t := by
  refine ⟨?_, clocked_of_answered o s answer t h⟩
  obtain ⟨call, o⟩ := o
  obtain ⟨hallowed, rfl, rfl⟩ := answered_eq_some h
  cases o with
  | clock =>
    have hcheck := (Bool.and_eq_true_iff.mp hallowed).2
    intro runId hcall version hcurrent _ _
    unfold notBehind at hcheck
    rw [hcall] at hcheck
    have htime : version.value.updatedAt ≤ (oracle s).clock := by
      simpa [hcurrent] using hcheck
    exact htime
  | observe plan handle =>
    have hcheck := (Bool.and_eq_true_iff.mp hallowed).2
    intro stored hcall _ _ _
    unfold notBehind at hcheck
    rw [hcall] at hcheck
    exact of_decide_eq_true hcheck
  | claim record => trivial
  | get runId => trivial
  | save stored record => trivial
  | appendAttempt attempt => trivial
  | submitOrAdopt plan runId attemptId trigger => trivial
  | cancel plan handle => trivial

/-- Reconcilers are given recorded snapshots. -/
def givesGenuine (cfg : TimedConfig) (call : ControlCall) : Bool :=
  match call.step with
  | .start _ => true
  | .cancel _ => true
  | .reconcile stored => recorded cfg.state.world.snapshots stored.revision =
      some ⟨stored.record.runId, some stored.record, 0⟩

theorem given_of_givesGenuine (cfg : TimedConfig) (event : TimedEvent)
    (h : ∀ i call, event = .issued i call → givesGenuine cfg call = true) : Given cfg event := by
  cases event with
  | issued i call =>
    have hcall := h i call rfl
    intro stored hstored
    unfold givesGenuine at hcall
    rw [hstored] at hcall
    exact ⟨0, of_decide_eq_true hcall⟩
  | performed i call o r => trivial
  | finished i call out => trivial
  | crashed i => trivial

/-- A backend that reports the run's stage at the given time. -/
def stageOracle (clock observedAt : ℤ) : Oracle :=
  ⟨clock, ⟨"b", "x"⟩, ⟨.running, .unknown, .pending, .pending, observedAt, some "loading", none⟩⟩

/-- The snapshot of the example run after its dispatch. -/
def submittedRun (now : ℤ) : StoredRun where
  record := (createRunRecord digest exampleSubmission).changed .running now
    { attemptCount := some 1, currentAttemptId := some "attempt-1-7a064ea9c221979af618",
      backendHandle := some ⟨"b", "x"⟩, stage := some "submitted" }
  revision := 1

def updateTimes (w : World) : List (String × Option ℤ) :=
  w.snapshots.map fun write => (write.name, write.value.map (·.updatedAt))

theorem not_timesInOrder {w : World} {runId : String} {later earlier : ℤ}
    {older : List (String × Option ℤ)}
    (h : updateTimes w = (runId, some later) :: (runId, some earlier) :: older)
    (hback : later < earlier) : ¬ TimesInOrder w := by
  intro hordered
  obtain ⟨newest, rest, hsnapshots, hnewest, hrest⟩ := List.map_eq_cons_iff.mp h
  obtain ⟨second, last, rfl, hsecond, -⟩ := List.map_eq_cons_iff.mp hrest
  simp only [Prod.mk.injEq, Option.map_eq_some_iff] at hnewest hsecond
  obtain ⟨hname, record, hrecord, rfl⟩ := hnewest
  obtain ⟨hname', previous, hprevious, rfl⟩ := hsecond
  unfold TimesInOrder at hordered
  rw [hsnapshots, List.pairwise_cons] at hordered
  have htime := hordered.1 second List.mem_cons_self (hname.trans hname'.symm) record previous
    hrecord hprevious
  exact absurd htime.updatedAt (not_le.mpr hback)

def exampleRunId : String := "run-cb6b93ab8cf7aee4db55b62f"

/-- A backend whose clock is behind Control's takes the time of a run back. -/
theorem observation_takes_time_back :
    ¬ ∀ sha256 events cfg,
      Run clocked (takeTimed sha256) Given (Config.start Timed.empty) events cfg →
      TimesInOrder cfg.state.world := by
  intro hall
  have hplay : (play (answered (fun _ => stageOracle 10 5) fun _ _ _ => true) (takeTimed digest)
      givesGenuine (Config.start Timed.empty)
      [.issue 0 ⟨exampleRegistry, .start exampleSubmission⟩, .exec 0, .exec 0, .exec 0, .exec 0,
        .exec 0, .finish 0, .issue 1 ⟨exampleRegistry, .reconcile (submittedRun 10)⟩, .exec 1,
        .exec 1]).any
      (fun last => decide (updateTimes last.state.world =
        [(exampleRunId, some 5), (exampleRunId, some 10), (exampleRunId, some 0)])) = true := by
    decide +kernel
  obtain ⟨events, cfg, hrun, htimes⟩ : ∃ events cfg,
      Run clocked (takeTimed digest) Given (Config.start Timed.empty) events cfg ∧
        updateTimes cfg.state.world =
          [(exampleRunId, some 5), (exampleRunId, some 10), (exampleRunId, some 0)] := by
    obtain ⟨cfg, hcfg, htimes⟩ := (Option.any_eq_true _ _).mp hplay
    obtain ⟨events, hrun⟩ := play_run clocked_of_answered given_of_givesGenuine hcfg
    exact ⟨events, cfg, hrun, of_decide_eq_true htimes⟩
  exact not_timesInOrder htimes (by decide) (hall digest events cfg hrun)

/-- A run that is dispatched, observed and cancelled while all clocks keep step. -/
theorem times_in_order_when_inStep_canceled :
    ∃ events cfg, Run inStep (takeTimed digest) Given (Config.start Timed.empty) events cfg ∧
      updateTimes cfg.state.world = [(exampleRunId, some 30), (exampleRunId, some 20),
        (exampleRunId, some 0), (exampleRunId, some 0)] ∧
      TimesInOrder cfg.state.world := by
  have hplay : (play (answered (fun s => stageOracle (10 * s.world.snapshots.length)
        (10 * s.world.snapshots.length)) notBehind) (takeTimed digest)
      givesGenuine (Config.start Timed.empty)
      [.issue 0 ⟨exampleRegistry, .start exampleSubmission⟩, .exec 0, .exec 0, .exec 0, .exec 0,
        .exec 0, .finish 0, .issue 1 ⟨exampleRegistry, .reconcile (submittedRun 0)⟩, .exec 1,
        .exec 1, .finish 1, .issue 2 ⟨exampleRegistry, .cancel exampleRunId⟩, .exec 2, .exec 2,
        .exec 2]).any
      (fun last => decide (updateTimes last.state.world = [(exampleRunId, some 30),
        (exampleRunId, some 20), (exampleRunId, some 0), (exampleRunId, some 0)])) = true := by
    decide +kernel
  obtain ⟨cfg, hcfg, htimes⟩ := (Option.any_eq_true _ _).mp hplay
  obtain ⟨events, hrun⟩ := play_run inStep_of_answered given_of_givesGenuine hcfg
  exact ⟨events, cfg, hrun, of_decide_eq_true htimes, times_in_order_when_inStep hrun⟩

end Runs

end Dander.Lifecycle
