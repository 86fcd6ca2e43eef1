import Dander.PostgresqlPendingRuns
import Dander.ReconciliationSweeps
import Mathlib

/-!
# Readiness of a Control process

A failure in any page of a sweep survives in a flag until the last page, and a failure after it is
recorded at once. So a process is ready only if its last complete sweep had no failure, and none
has been recorded since.
-/
namespace Dander.Reconciliation

open Interleaving

section Entries

variable {R W : Type}

/-- A query that failed, or a run whose reconciliation failed. -/
def fails : Performed R → Bool
  | ⟨.listRecovery .., (.error _ : Except Raised (StoredRunPage R))⟩ => true
  | ⟨.reconcileStored _, (.error e : Except Raised Unit)⟩ => !e.conflicts
  | _ => false

def recordsFailure : Performed R → Bool
  | ⟨.markPageFailed, _⟩ => true
  | ⟨.markReconcileResult failed _, _⟩ => failed
  | _ => false

/-- The operations of the current sweep. -/
def current (journal : Journal R W) : Journal R W :=
  journal.takeWhile fun entry => !completes entry.2

/-- The last complete sweep had no failure, and no failure has been recorded since it ended. -/
def Recovered (journal : Journal R W) : Prop :=
  ∃ since completed sweep earlier, journal = since ++ completed :: (sweep ++ earlier) ∧
    completes completed.2 = true ∧ recordsFailure completed.2 = false ∧
    (∀ entry ∈ since, completes entry.2 = false ∧ recordsFailure entry.2 = false) ∧
    (∀ entry ∈ sweep, completes entry.2 = false ∧ fails entry.2 = false) ∧
    (earlier = [] ∨ ∃ last rest, earlier = last :: rest ∧ completes last.2 = true)

def NoFailure (journal : Journal R W) : Prop := ∀ entry ∈ current journal, fails entry.2 = false

variable {journal grown : Journal R W} {entry : World W × Performed R}

theorem NoFailure.cons (h : NoFailure journal) (hentry : fails entry.2 = false) :
    NoFailure (entry :: journal) := by
  intro other hother
  rw [current, List.takeWhile_cons] at hother
  cases hcompletes : completes entry.2 with
  | true => simp [hcompletes] at hother
  | false =>
    rw [hcompletes] at hother
    rcases List.mem_cons.mp hother with rfl | hrest
    · exact hentry
    · exact h other hrest

theorem NoFailure.completed (hcompletes : completes entry.2 = true) :
    NoFailure (entry :: journal) := by
  intro other hother
  simp [current, hcompletes] at hother

theorem fails_of_foreign (h : foreign entry.2.1 = true) : fails entry.2 = false := by
  obtain ⟨world, op, reply⟩ := entry
  cases op <;> first | rfl | cases h

theorem NoFailure.foreign (h : NoFailure journal)
    (hgrown : ∀ entry ∈ grown, foreign entry.2.1 = true) : NoFailure (grown ++ journal) := by
  induction grown with
  | nil => exact h
  | cons entry rest ih =>
    refine (ih fun later hlater => hgrown later (List.mem_cons_of_mem _ hlater)).cons ?_
    exact fails_of_foreign (hgrown entry List.mem_cons_self)

theorem Recovered.cons (h : Recovered journal) (hcompletes : completes entry.2 = false)
    (hrecords : recordsFailure entry.2 = false) : Recovered (entry :: journal) := by
  obtain ⟨since, completed, sweep, earlier, rfl, hcompleted, hclean, hsince, hsweep, hstart⟩ := h
  refine ⟨entry :: since, completed, sweep, earlier, rfl, hcompleted, hclean, ?_, hsweep, hstart⟩
  intro other hother
  rcases List.mem_cons.mp hother with rfl | hrest
  · exact ⟨hcompletes, hrecords⟩
  · exact hsince other hrest

/-- The end of a sweep in which nothing failed. -/
theorem Recovered.complete (h : NoFailure journal) (hcompletes : completes entry.2 = true)
    (hrecords : recordsFailure entry.2 = false) : Recovered (entry :: journal) := by
  refine ⟨[], entry, current journal, journal.dropWhile fun entry => !completes entry.2, ?_,
    hcompletes, hrecords, by simp, ?_, ?_⟩
  · rw [List.nil_append, current, List.takeWhile_append_dropWhile]
  · intro other hother
    have hcurrent := List.mem_takeWhile_imp hother
    exact ⟨by simpa using hcurrent, h other hother⟩
  · cases hdrop : journal.dropWhile fun entry => !completes entry.2 with
    | nil => exact .inl rfl
    | cons last rest =>
      have hlast := List.head_dropWhile_not (fun entry => !completes entry.2) (l := journal) (by simp [hdrop])
      simp [hdrop] at hlast
      exact .inr ⟨last, rest, rfl, hlast⟩

end Entries

section Flags

variable {R W : Type}

/-- The flags by which a process is ready tell of a recovered store. -/
def ReadyTold (s : State R W) : Prop :=
  s.1.control.thread ≠ .dead → s.1.control.initialRecoveryComplete = true →
    s.1.control.lastPassFailed = false → Recovered s.2

/-- Unless a failure has been noted, nothing has failed in the current sweep. -/
def Noted (failed : Bool) (s : State R W) : Prop :=
  s.1.control.thread ≠ .dead → s.1.control.scanFailed = false → failed = false → NoFailure s.2

/-- Between two pages every failure has been noted, unless the process is being stopped. -/
def Idle (s : State R W) : Prop := s.1.control.stop = false → Noted false s

/-- What the other workers leave of the flags. -/
structure FlagsKept (s t : State R W) : Prop where
  scanFailed : t.1.control.scanFailed = s.1.control.scanFailed
  stop : t.1.control.stop = false → s.1.control.stop = false
  thread : t.1.control.thread ≠ .dead → s.1.control.thread ≠ .dead
  journal : ∃ grown, t.2 = grown ++ s.2 ∧ ∀ entry ∈ grown, foreign entry.2.1 = true

def flagDiscipline (R W : Type) : Discipline (State R W) where
  inv := ReadyTold
  le := FlagsKept
  refl s := ⟨rfl, id, id, [], rfl, by simp⟩
  trans a b c hab hbc := by
    obtain ⟨grown, hgrown, hforeign⟩ := hab.journal
    obtain ⟨grown', hgrown', hforeign'⟩ := hbc.journal
    refine ⟨hbc.scanFailed.trans hab.scanFailed, fun h => hab.stop (hbc.stop h),
      fun h => hab.thread (hbc.thread h), grown' ++ grown, ?_, ?_⟩
    · rw [hgrown', hgrown, List.append_assoc]
    · intro entry hentry
      rcases List.mem_append.mp hentry with hlate | hearly
      · exact hforeign' entry hlate
      · exact hforeign entry hearly

variable {s t : State R W} {performed : Performed R} {failed : Bool} {page : StoredRunPage R}

theorem Noted.stable (h : Noted failed s) (hkept : FlagsKept s t) : Noted failed t := by
  intro hthread hscan hfailed
  obtain ⟨grown, hjournal, hforeign⟩ := hkept.journal
  rw [hjournal]
  rw [hkept.scanFailed] at hscan
  exact (h (hkept.thread hthread) hscan hfailed).foreign hforeign

theorem Idle.stable (h : Idle s) (hkept : FlagsKept s t) : Idle t :=
  fun hstop => (h (hkept.stop hstop)).stable hkept

theorem Noted.keep (h : Noted failed s) (hcontrol : t.1.control = s.1.control)
    (hjournal : t.2 = (s.1, performed) :: s.2) (hfails : fails performed = false) :
    Noted failed t := by
  intro hthread hscan hfailed
  rw [hcontrol] at hthread hscan
  rw [hjournal]
  exact (h hthread hscan hfailed).cons hfails

/-- An operation that leaves the flags as they are, and records nothing. -/
theorem ReadyTold.keep (h : ReadyTold s) (hcontrol : t.1.control = s.1.control)
    (hjournal : t.2 = (s.1, performed) :: s.2) (hcompletes : completes performed = false)
    (hrecords : recordsFailure performed = false) : ReadyTold t := by
  intro hthread hinitial hlast
  rw [hcontrol] at hthread hinitial hlast
  rw [hjournal]
  exact (h hthread hinitial hlast).cons hcompletes hrecords

theorem ReadyTold.markPageFailed (hcontrol : t.1.control = s.1.control.markPageFailed) :
    ReadyTold t := by
  intro hthread hinitial hlast
  rw [hcontrol] at hlast
  cases hlast

theorem ReadyTold.dead (hthread : t.1.control.thread = .dead) : ReadyTold t :=
  fun hne => absurd hthread hne

theorem Idle.dead (hthread : t.1.control.thread = .dead) : Idle t :=
  fun _ hne => absurd hthread hne

/-- The end of a page notes its failures, and the end of a sweep tells of them. -/
theorem ReadyTold.markReconcileResult {next : Option String} {reply : Unit} (h : ReadyTold s)
    (hnoted : Noted failed s)
    (hcontrol : t.1.control = s.1.control.markReconcileResult failed next)
    (hjournal : t.2 = (s.1, ⟨.markReconcileResult failed next, reply⟩) :: s.2) :
    ReadyTold t ∧ Noted false t := by
  cases next with
  | none =>
    constructor
    · intro hthread _ hlast
      rw [hcontrol] at hthread hlast
      have hflags : s.1.control.scanFailed = false ∧ failed = false := by
        simpa [Control.markReconcileResult] using hlast
      rw [hjournal]
      exact .complete (hnoted hthread hflags.1 hflags.2) rfl hflags.2
    · intro _ _ _
      rw [hjournal]
      exact .completed rfl
  | some next =>
    constructor
    · intro hthread hinitial hlast
      rw [hcontrol] at hthread hinitial hlast
      cases failed with
      | true => cases hlast
      | false =>
        rw [hjournal]
        exact (h hthread hinitial hlast).cons rfl rfl
    · intro hthread hscan _
      rw [hcontrol] at hthread hscan
      have hflags : s.1.control.scanFailed = false ∧ failed = false := by
        simpa [Control.markReconcileResult] using hscan
      rw [hjournal]
      exact (hnoted hthread hflags.1 hflags.2).cons rfl

end Flags

section Readiness

variable {R W : Type} {store : PendingRunStore R W} {s t : State R W} {failed : Bool}

abbrev Tells {α : Type} (store : PendingRunStore R W) (Q : α → State R W → Prop)
    (E : Raised → State R W → Prop) (p : Program R α) (s : State R W) : Prop :=
  Owned (services store).recorded (flagDiscipline R W) (fun _ _ _ _ => True) Q E p s

/-- A page is cut short by the stop only. -/
def PageNoted : PageEnd → State R W → Prop
  | .stopped _, s => s.1.control.stop = true
  | .finished failed _, s => Noted failed s

abbrev Unknown (_ : Raised) (_ : State R W) : Prop := True

theorem reconcileItems_tells {rest : List R} {processed : ℕ} (h : Noted failed s) :
    Tells store PageNoted Unknown (reconcileItems rest failed processed) s := by
  induction rest generalizing failed processed s with
  | nil => exact h
  | cons stored rest ih =>
    intro t hle hinv stopped t' ⟨⟨hread, hworld⟩, hjournal⟩
    have hcontrol : t'.1.control = t.1.control := congrArg World.control hworld
    have hnoted := (h.stable hle).keep hcontrol hjournal rfl
    refine ⟨hinv.keep hcontrol hjournal rfl rfl, trivial, ?_⟩
    cases stopped with
    | true => exact (congrArg Control.stop hcontrol).trans hread.symm
    | false =>
      intro u hle hinv stopped u' ⟨⟨hread, hworld⟩, hjournal⟩
      have hcontrol : u'.1.control = u.1.control := congrArg World.control hworld
      have hnoted := (hnoted.stable hle).keep hcontrol hjournal rfl
      refine ⟨hinv.keep hcontrol hjournal rfl rfl, trivial, ?_⟩
      cases stopped with
      | true => exact (congrArg Control.stop hcontrol).trans hread.symm
      | false =>
        intro v hle hinv reconciled v' ⟨hcontrol, hjournal⟩
        have hnoted := hnoted.stable hle
        refine ⟨hinv.keep hcontrol hjournal rfl rfl, trivial, ?_⟩
        cases reconciled with
        | ok done => exact ih (hnoted.keep hcontrol hjournal rfl)
        | error e =>
          show Owned _ _ _ _ _ (if e.conflicts then _ else if e.handled then _ else _) _
          cases hconflicts : e.conflicts with
          | true => exact ih (hnoted.keep hcontrol hjournal (by simp [fails, hconflicts]))
          | false =>
            cases e.handled with
            | true => exact ih fun _ _ hfalse => by cases hfalse
            | false => trivial

theorem finishPage_tells {next : Option String} {ending : PageEnd} (h : PageNoted ending s) :
    Tells store (fun _ => Idle) Unknown (finishPage next ending) s := by
  cases ending with
  | stopped processed =>
    intro hstop
    rw [show s.1.control.stop = true from h] at hstop
    cases hstop
  | finished failed processed =>
    intro t hle hinv reply t' ⟨hworld, hjournal⟩
    have hnoted : Noted failed t := Noted.stable h hle
    obtain ⟨htold, hidle⟩ := hinv.markReconcileResult hnoted
      (congrArg World.control hworld) hjournal
    exact ⟨htold, trivial, fun _ => hidle⟩

theorem reconcilePage_tells {pageSize : ℕ} (h : Noted false s) :
    Tells store (fun _ => Idle) Unknown (reconcilePage pageSize) s := by
  intro t hle hinv cursor t' ⟨⟨_, hworld⟩, hjournal⟩
  have hcontrol : t'.1.control = t.1.control := congrArg World.control hworld
  have hnoted := (h.stable hle).keep hcontrol hjournal rfl
  refine ⟨hinv.keep hcontrol hjournal rfl rfl, trivial, ?_⟩
  intro u hle hinv listed u' ⟨⟨_, hworld⟩, hjournal⟩
  have hcontrol : u'.1.control = u.1.control := congrArg World.control hworld
  refine ⟨hinv.keep hcontrol hjournal rfl rfl, trivial, ?_⟩
  cases listed with
  | ok page =>
    have hnoted := (hnoted.stable hle).keep hcontrol hjournal rfl
    exact (reconcileItems_tells hnoted).bind fun ending after hdone => finishPage_tells hdone
  | error e =>
    show Owned _ _ _ _ _ (if e.fromStore then _ else _) _
    cases e.fromStore with
    | false => trivial
    | true =>
      intro v hle hinv reply v' ⟨hworld, hjournal⟩
      have hcontrol : v'.1.control = v.1.control.markPageFailed := congrArg World.control hworld
      refine ⟨.markPageFailed hcontrol, trivial, fun _ _ hscan => ?_⟩
      rw [hcontrol] at hscan
      cases hscan

theorem reconcilePages_tells {pageSize pages processed : ℕ} (h : Idle s) :
    Tells store (fun _ => Idle) Unknown (reconcilePages pageSize pages processed) s := by
  induction pages generalizing processed s with
  | zero => exact h
  | succ pages ih =>
    intro t hle hinv stopped t' ⟨⟨hread, hworld⟩, hjournal⟩
    have hcontrol : t'.1.control = t.1.control := congrArg World.control hworld
    refine ⟨hinv.keep hcontrol hjournal rfl rfl, trivial, ?_⟩
    cases stopped with
    | true =>
      intro hstop
      rw [hcontrol, ← hread] at hstop
      cases hstop
    | false =>
      have hnoted := (h.stable hle hread.symm).keep hcontrol hjournal rfl
      refine (reconcilePage_tells hnoted).bind fun page after hidle => ?_
      show Owned _ _ _ _ _ (if page.2 then _ else _) _
      cases page.2 with
      | true => exact ih hidle
      | false => exact hidle

/-- What a call leaves where it raises: the thread is dead. -/
def RaisedBy : ControlCall → Raised → State R W → Prop
  | .reconcileOnce, _, _ => True
  | _, _, s => Idle s

theorem threadEnds_tells {α : Type} {p : Program R α} {Q : α → State R W → Prop}
    {E : Raised → State R W → Prop} (hp : ∀ t, Idle t → Tells store Q E p t) :
    Tells store Q E (.call .threadEnds fun _ => p) s := by
  intro t hle hinv reply t' ⟨hworld, hjournal⟩
  have hthread : t'.1.control.thread = .dead := by rw [hworld]
  exact ⟨.dead hthread, trivial, hp t' (.dead hthread)⟩

theorem reconciles_tells {pageSize : ℕ} {call : ControlCall} (hcall : call.reconciles = true)
    (h : Idle s) : Tells store (fun _ => Idle) (RaisedBy call) (body pageSize call) s := by
  cases call with
  | reconcileOnce => exact reconcilePages_tells h
  | reconcileLoop =>
    intro t hle hinv stopped t' ⟨⟨hread, hworld⟩, hjournal⟩
    have hcontrol : t'.1.control = t.1.control := congrArg World.control hworld
    refine ⟨hinv.keep hcontrol hjournal rfl rfl, trivial, ?_⟩
    cases stopped with
    | true => exact threadEnds_tells fun _ hidle => hidle
    | false =>
      have hidle : Idle t' := fun _ =>
        (h.stable hle hread.symm).keep hcontrol hjournal rfl
      refine (reconcilePages_tells hidle).tryCatch fun e after _ => ?_
      exact threadEnds_tells fun _ hidle => hidle
  | startReconciler => cases hcall
  | close => cases hcall
  | mutate => cases hcall

theorem foreign_records {performed : Performed R} (h : foreign performed.1 = true) :
    completes performed = false ∧ recordsFailure performed = false := by
  obtain ⟨op, reply⟩ := performed
  cases op <;> first | exact ⟨rfl, rfl⟩ | cases h

/-- The operations of the other workers change no flag but the stop, which they only set, and
revive no thread. -/
theorem flags_of_foreign {op : ReconcilerOp R} {world world' : World W} {reply : op.Res}
    (hforeign : foreign op = true) (hstep : (services store).step op world reply world') :
    world'.control.scanFailed = world.control.scanFailed ∧
      world'.control.lastPassFailed = world.control.lastPassFailed ∧
      world'.control.initialRecoveryComplete = world.control.initialRecoveryComplete ∧
      (world'.control.stop = false → world.control.stop = false) ∧
      (world'.control.thread ≠ .dead → world.control.thread ≠ .dead) := by
  cases op with
  | startReconciler =>
    obtain ⟨hcontrol, -⟩ := hstep
    obtain ⟨thread, hstarted, hdead⟩ := startReconciler_control world.control
    have hcontrol' : world'.control = { world.control with thread := thread } := by
      rw [← hstarted, hcontrol]
    rw [hcontrol']
    exact ⟨rfl, rfl, rfl, id, fun hne hwas => hne (hdead.mpr hwas)⟩
  | setClosed =>
    rw [show world' = _ from hstep]
    exact ⟨rfl, rfl, rfl, id, id⟩
  | setStop =>
    rw [show world' = _ from hstep]
    refine ⟨rfl, rfl, rfl, ?_, id⟩
    intro hstop
    cases hstop
  | changeRuns =>
    rw [show world'.control = _ from hstep]
    exact ⟨rfl, rfl, rfl, id, id⟩
  | _ => cases hforeign

theorem flags_kept {op : ReconcilerOp R} {reply : op.Res} (hforeign : foreign op = true)
    (hinv : ReadyTold s) (hstep : (services store).recorded.step op s reply t) :
    ReadyTold t ∧ FlagsKept s t := by
  obtain ⟨hstep, hjournal⟩ := hstep
  obtain ⟨hscan, hlast, hinitial, hstop, hthread⟩ := flags_of_foreign hforeign hstep
  have hperformed : foreign (⟨op, reply⟩ : Performed R).1 = true := hforeign
  obtain ⟨hcompletes, hrecords⟩ := foreign_records hperformed
  constructor
  · intro hne hdone hpassed
    rw [hlast] at hpassed
    rw [hinitial] at hdone
    rw [hjournal]
    exact (hinv (hthread hne) hdone hpassed).cons hcompletes hrecords
  · refine ⟨hscan, hstop, hthread, [(s.1, ⟨op, reply⟩)], hjournal, ?_⟩
    intro entry hentry
    rw [List.mem_singleton] at hentry
    rw [hentry]
    exact hforeign

theorem raisesLast_admits (store : PendingRunStore R W) (pageSize : ℕ) :
    Admits (services store).recorded (flagDiscipline R W) (fun _ _ _ _ => True)
      (fun _ _ => Idle) RaisedBy (fun op => foreign op = true) Idle 0 (body pageSize)
      RaisesLast where
  stable _ _ hle hidle := Idle.stable hidle hle
  returned _ _ _ _ hle hidle := Idle.stable hidle hle
  raised call _ _ _ hle hraised := by
    cases call with
    | reconcileOnce => trivial
    | _ => exact Idle.stable hraised hle
  kept _ _ _ _ hforeign hinv hstep := flags_kept hforeign hinv hstep
  crashed _ h := h.1.1 rfl
  issued _ call h _ hidle := reconciles_tells ((h.1.2 0 call rfl).mp rfl) hidle
  other _ _ _ h hi := h.1.other hi
  ended _ _ _ _ hidle := hidle
  failed cfg call e h hraised := by
    cases call with
    | reconcileOnce => exact absurd rfl (h.2 e)
    | _ => exact hraised

/-- In every run of a process, the scan cursor moves only past a page that was fetched at it and
whose runs were all visited; a run that was pending from the first page of a sweep to its end was
visited in it; and the process is ready only if the last complete sweep had no failure and none
has been recorded since. -/
theorem reconciliation_complete (store : PendingRunStore R W) (pageSize : ℕ) (w : W) :
    (∀ (events : List (ProcessEvent R)) (cfg cfg' : Process R W) (event : ProcessEvent R),
      Run (services store).recorded (body pageSize) OneReconciler (.start (⟨.fresh, w⟩, []))
        events cfg →
      Step (services store).recorded (body pageSize) cfg event cfg' →
      (cfg'.state.1.control.scanCursor ≠ cfg.state.1.control.scanCursor →
        ∃ page middle world limit earlier,
          cfg'.state.1.control.scanCursor = page.nextCursor ∧
          cfg.state.2 = middle ++ (world,
            ⟨.listRecovery cfg.state.1.control.scanCursor limit, .ok page⟩) :: earlier ∧
          ∀ stored ∈ page.items, ∃ entry ∈ middle, entry.2.1 = .reconcileStored stored) ∧
      ∀ i call failed reply, event = .performed i call (.markReconcileResult failed none) reply →
        ∀ middle first earlier run, cfg.state.2 = middle ++ first :: earlier →
          startsSweep first.2 = true → (∀ entry ∈ middle, completes entry.2 = false) →
          (∀ entry ∈ first :: middle, store.pending entry.1.runs run) →
          ∃ entry ∈ middle, visits store run entry.2) ∧
    ∀ (events : List (ProcessEvent R)) (cfg : Process R W) (submissionSources : List Bool),
      Run (services store).recorded (body pageSize) RaisesLast (.start (⟨.fresh, w⟩, []))
        events cfg →
      cfg.state.1.control.ready submissionSources = true → Recovered cfg.state.2 := by
  refine ⟨?_, ?_⟩
  · intro events cfg cfg' event run next
    refine ⟨fun hmoved => ?_, ?_⟩
    · rcases moves_of_step run next with hsame | ⟨i, call, op, reply, -, hmoves⟩
      · exact absurd hsame hmoved
      · cases op with
        | markReconcileResult failed nextCursor =>
          obtain ⟨hcursor, ⟨page, hpage, hfetched⟩, -⟩ := hmoves
          obtain ⟨middle, world, limit, earlier, hjournal, hvisited⟩ := hfetched
          refine ⟨page, middle, world, limit, earlier, hcursor.trans hpage, hjournal, ?_⟩
          intro stored hstored
          rcases hvisited stored hstored with hnone | hvisit
          · cases hnone
          · exact hvisit
        | _ => exact absurd hmoves hmoved
    · intro i call failed reply hevent middle first earlier run' hjournal hstarts hsweep hpending
      subst hevent
      obtain ⟨hpromise, hforeign⟩ := (process_cursor run).promised next
      have hi : i = 0 := by
        by_contra hi
        cases hforeign hi
      obtain ⟨-, -, hcovered⟩ := hpromise hi
      by_contra hnot
      refine hcovered rfl run' ?_
      rw [hjournal]
      refine awaited_of_pending hstarts hpending hsweep ?_
      exact fun entry hentry hvisit => hnot ⟨entry, hentry, hvisit⟩
  · intro events cfg submissionSources run hready
    have hfresh : ReadyTold ((⟨.fresh, w⟩, []) : State R W) := fun _ hinitial _ => by cases hinitial
    have hidle : Idle ((⟨.fresh, w⟩, []) : State R W) := fun _ _ _ _ entry hentry => by
      cases hentry
    have howned := run.owned (raisesLast_admits store pageSize) (.start hfresh hidle)
    simp only [Control.ready, Bool.and_eq_true, Bool.not_eq_true', decide_eq_true_eq] at hready
    obtain ⟨⟨⟨⟨-, halive⟩, hinitial⟩, hlast⟩, -⟩ := hready
    exact howned.inv (by rw [halive]; simp) hinitial hlast

end Readiness

section Sweep

open PostgresqlRunStore (StoredRun rowOf)
open RunStoreAgreement (exampleKey exampleRecord)

/-- A database with one run, which is queued. -/
def queuedDatabase : FlaggedDatabase :=
  ⟨⟨[rowOf (exampleRecord "a" "shop" exampleKey) exampleKey], [], []⟩, by
    intro row hrow
    rw [List.mem_singleton] at hrow
    rw [hrow]
    rfl⟩

theorem some_id (text : String) : some (id text) = some text := rfl

abbrev pendingRuns : PendingRunStore StoredRun FlaggedDatabase :=
  postgresqlPending ⟨id, some, some_id⟩ .codePoint

def listed : Except Orchestration.RunStoreError PostgresqlRunStore.StoredRunPage →
    Except Raised (StoredRunPage StoredRun)
  | .ok page => .ok ⟨page.items, page.nextCursor⟩
  | .error e => .error (.lifecycle (.store e))

/-- Services that do not fail. -/
def answer : (op : ReconcilerOp StoredRun) → World FlaggedDatabase → op.Res × World FlaggedDatabase
  | .stopIsSet, world => (world.control.stop, world)
  | .scanCursor, world => (world.control.scanCursor, world)
  | .listRecovery cursor limit, world =>
    (listed (PostgresqlRunStore.list ⟨id, some, some_id⟩ .codePoint world.runs.1 true cursor
      limit), world)
  | .markPageFailed, world => ((), ⟨world.control.markPageFailed, world.runs⟩)
  | .reconcileStored _, world => ((.ok () : Except Raised Unit), world)
  | .markReconcileResult failed nextCursor, world =>
    ((), ⟨world.control.markReconcileResult failed nextCursor, world.runs⟩)
  | .threadEnds, world => ((), ⟨{ world.control with thread := .dead }, world.runs⟩)
  | .startReconciler, world =>
    (world.control.startReconciler.1, ⟨world.control.startReconciler.2, world.runs⟩)
  | .setClosed, world => ((), ⟨{ world.control with closed := true }, world.runs⟩)
  | .setStop, world => ((), ⟨{ world.control with stop := true }, world.runs⟩)
  | .changeRuns, world => ((), world)

theorem answer_step (op : ReconcilerOp StoredRun) (world : World FlaggedDatabase) :
    (services pendingRuns).step op world (answer op world).1 (answer op world).2 := by
  cases op with
  | listRecovery cursor limit =>
    refine ⟨?_, rfl⟩
    intro page hpage
    have hlisted : listed (PostgresqlRunStore.list ⟨id, some, some_id⟩ .codePoint
        world.runs.1 true cursor limit) = .ok page := hpage
    show PostgresqlRunStore.list _ _ _ _ _ _ = _
    cases hlist : PostgresqlRunStore.list ⟨id, some, some_id⟩ .codePoint world.runs.1 true
        cursor limit with
    | error e =>
      rw [hlist] at hlisted
      cases hlisted
    | ok found =>
      rw [hlist] at hlisted
      obtain rfl := Except.ok.inj hlisted
      rfl
  | stopIsSet => exact ⟨rfl, rfl⟩
  | scanCursor => exact ⟨rfl, rfl⟩
  | startReconciler => exact ⟨rfl, rfl⟩
  | _ => rfl

def answerRecorded (op : ReconcilerOp StoredRun) (s : State StoredRun FlaggedDatabase) :
    Option (op.Res × State StoredRun FlaggedDatabase) :=
  some ((answer op s.1).1, ((answer op s.1).2, (s.1, ⟨op, (answer op s.1).1⟩) :: s.2))

theorem answerRecorded_step (op : ReconcilerOp StoredRun) (s : State StoredRun FlaggedDatabase)
    (reply : op.Res) (t : State StoredRun FlaggedDatabase)
    (h : answerRecorded op s = some (reply, t)) :
    (services pendingRuns).recorded.step op s reply t := by
  obtain ⟨rfl, rfl⟩ := Prod.mk.inj (Option.some.inj h)
  exact ⟨answer_step op s.1, rfl⟩

/-- The thread starts, and its first iteration fetches a page and reconciles its one run. -/
def firstSweep : List (Move ControlCall) :=
  [.issue 1 .startReconciler, .exec 1, .finish 1, .issue 0 .reconcileLoop, .exec 0, .exec 0,
    .exec 0, .exec 0, .exec 0, .exec 0, .exec 0]

def admitsCall (_ : Process StoredRun FlaggedDatabase) : ProcessEvent StoredRun → Bool
  | .issued i call => decide (i = 0 ↔ call.reconciles = true)
  | .performed .. => true
  | .finished _ call _ => !call.reconciles
  | .crashed _ => false

theorem admitsCall_raisesLast (cfg : Process StoredRun FlaggedDatabase)
    (event : ProcessEvent StoredRun) (h : admitsCall cfg event = true) : RaisesLast cfg event := by
  cases event with
  | issued i call =>
    refine ⟨⟨by simp, ?_⟩, by simp⟩
    intro j other heq
    obtain ⟨rfl, rfl⟩ := Event.issued.inj heq
    exact of_decide_eq_true h
  | performed i call op reply => exact ⟨⟨by simp, by simp⟩, by simp⟩
  | finished i call out =>
    refine ⟨⟨by simp, by simp⟩, ?_⟩
    intro e heq
    obtain ⟨-, rfl, -⟩ := Event.finished.inj heq
    cases h
  | crashed i => cases h

def marksEnd : ProcessEvent StoredRun → Bool
  | .performed _ _ (.markReconcileResult false none) _ => true
  | _ => false

/-- The end of the first sweep, with the run pending: its last three operations follow the page. -/
def endsSweep (before : State StoredRun FlaggedDatabase) (event : ProcessEvent StoredRun)
    (after : State StoredRun FlaggedDatabase) : Bool :=
  marksEnd event && after.1.control.ready [] &&
    (before.2.take 3).all (fun entry => !completes entry.2) &&
    (before.2.drop 3).head?.any (fun first => startsSweep first.2) &&
    before.2.all fun entry => entry.1.runs.1.runs.any fun row =>
      decide (row.runId = "a") && Orchestration.runNeedsReconciliation row.recordBytes

theorem pending_of_any {db : FlaggedDatabase}
    (h : (db.1.runs.any fun row => decide (row.runId = "a") &&
      Orchestration.runNeedsReconciliation row.recordBytes) = true) : PendingRow db "a" := by
  obtain ⟨row, hrow, hneeds⟩ := List.any_eq_true.mp h
  rw [Bool.and_eq_true, decide_eq_true_eq] at hneeds
  exact ⟨row, hrow, hneeds.1, hneeds.2⟩

theorem reconciliation_complete_sweep :
    ∃ (events : _) (cfg cfg' : Process StoredRun FlaggedDatabase) (event : _),
      Run (services pendingRuns).recorded (body 100) RaisesLast
        (.start (⟨.fresh, queuedDatabase⟩, [])) events cfg ∧
      Step (services pendingRuns).recorded (body 100) cfg event cfg' ∧
      (∃ entry ∈ cfg.state.2, visits pendingRuns "a" entry.2) ∧
      cfg'.state.1.control.ready [] = true ∧ Recovered cfg'.state.2 := by
  obtain ⟨events, cfg, event, cfg', run, next, hends⟩ :
      ∃ (events : _) (cfg : Process StoredRun FlaggedDatabase) (event : _) (cfg' : _),
        Run (services pendingRuns).recorded (body 100) RaisesLast
          (.start (⟨.fresh, queuedDatabase⟩, [])) events cfg ∧
        Step (services pendingRuns).recorded (body 100) cfg event cfg' ∧
        endsSweep cfg.state event cfg'.state = true :=
    record_then (P := endsSweep) 2 firstSweep (.exec 0) admitsCall answerRecorded_step
      (fun cfg event _ => admitsCall_raisesLast cfg event) (by decide) (by decide +kernel)
  simp only [endsSweep, Bool.and_eq_true] at hends
  obtain ⟨⟨⟨⟨hmarks, hready⟩, hsweep⟩, hstarts⟩, hpending⟩ := hends
  obtain ⟨first, earlier, hdrop⟩ : ∃ first earlier, cfg.state.2.drop 3 = first :: earlier := by
    cases hdrop : cfg.state.2.drop 3 with
    | nil => simp [hdrop] at hstarts
    | cons first earlier => exact ⟨first, earlier, rfl⟩
  rw [hdrop, List.head?_cons, Option.any_some] at hstarts
  have hjournal : cfg.state.2 = cfg.state.2.take 3 ++ first :: earlier := by
    rw [← hdrop, List.take_append_drop]
  have hsole := run.mono fun _ _ h => h.1
  cases event with
  | performed i call op reply =>
    cases op with
    | markReconcileResult failed nextCursor =>
      have hmark : failed = false ∧ nextCursor = none := by
        cases failed <;> cases nextCursor <;> first | exact ⟨rfl, rfl⟩ | cases hmarks
      obtain ⟨rfl, rfl⟩ := hmark
      have hcovered := ((reconciliation_complete pendingRuns 100 queuedDatabase).1 _ _ _ _ hsole
        next).2 i call false reply rfl _ first earlier "a" hjournal hstarts
      have hvisited := hcovered ?_ ?_
      · obtain ⟨entry, hentry, hvisit⟩ := hvisited
        refine ⟨events, cfg, cfg', _, run, next, ⟨entry, List.mem_of_mem_take hentry, hvisit⟩, hready, ?_⟩
        exact (reconciliation_complete pendingRuns 100 queuedDatabase).2 _ _ []
          (.snoc run (admitsCall_raisesLast cfg _ rfl) next) hready
      · intro entry hentry
        simpa using List.all_eq_true.mp hsweep entry hentry
      · intro entry hentry
        apply pending_of_any
        refine List.all_eq_true.mp hpending entry ?_
        rw [hjournal]
        rcases List.mem_cons.mp hentry with rfl | hmiddle
        · exact List.mem_append_right _ List.mem_cons_self
        · exact List.mem_append_left _ hmiddle
    | _ => cases hmarks
  | _ => cases hmarks

end Sweep

end Dander.Reconciliation
