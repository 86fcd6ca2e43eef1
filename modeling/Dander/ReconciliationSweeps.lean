import Dander.Reconciliation

/-!
# Sweeps of the reconciler

From the journal of a process one can tell which runs still await a visit in the current sweep.
The scan cursor has passed none of these, and it moves only past a page whose runs were all
visited, so at the end of a sweep no run that was pending throughout still awaits its visit.
-/
namespace Dander.Reconciliation

open Interleaving

section Entries

variable {R W : Type} (store : PendingRunStore R W) (run : String)

abbrev Performed (R : Type) := Sigma (ReconcilerOp.Res (R := R))

/-- The operation ends a sweep. -/
def completes : Performed R → Bool
  | ⟨.markReconcileResult _ none, _⟩ => true
  | _ => false

/-- The operation fetches the first page of a sweep. -/
def startsSweep : Performed R → Bool
  | ⟨.listRecovery none _, (.ok _ : Except Raised (StoredRunPage R))⟩ => true
  | _ => false

def visits : Performed R → Prop
  | ⟨.reconcileStored stored, _⟩ => store.runId stored = run
  | _ => False

/-- An operation of the other workers. -/
def foreign : ReconcilerOp R → Bool
  | .startReconciler | .setClosed | .setStop | .changeRuns => true
  | _ => false

/-- The run has been pending since a sweep started, and has not been visited in it. -/
def Awaited : Journal R W → Prop
  | [] => False
  | (world, performed) :: earlier =>
    store.pending world.runs run ∧ (startsSweep performed = true ∨
      (Awaited earlier ∧ completes performed = false ∧ ¬ visits store run performed))

variable {store run} {world : World W} {performed : Performed R} {journal earlier : Journal R W}

theorem Awaited.of_cons (hstarts : startsSweep performed = false)
    (h : Awaited store run ((world, performed) :: earlier)) :
    Awaited store run earlier ∧ completes performed = false ∧ ¬ visits store run performed := by
  rcases h.2 with hstart | hrest
  · rw [hstarts] at hstart
    cases hstart
  · exact hrest

theorem startsSweep_of_foreign (h : foreign performed.1 = true) :
    startsSweep performed = false := by
  obtain ⟨op, reply⟩ := performed
  cases op <;> first | rfl | cases h

theorem Awaited.of_foreign {grown : Journal R W}
    (hgrown : ∀ entry ∈ grown, foreign entry.2.1 = true)
    (h : Awaited store run (grown ++ earlier)) : Awaited store run earlier := by
  induction grown with
  | nil => exact h
  | cons entry rest ih =>
    obtain ⟨world, performed⟩ := entry
    have hforeign := hgrown (world, performed) List.mem_cons_self
    refine ih (fun later hlater => hgrown later (List.mem_cons_of_mem _ hlater)) ?_
    exact (Awaited.of_cons (startsSweep_of_foreign hforeign) h).1

/-- A run that is pending from the first page of a sweep on awaits a visit until it gets one. -/
theorem awaited_of_pending {middle : Journal R W} {first : World W × Performed R}
    (hstarts : startsSweep first.2 = true) (hpending : ∀ entry ∈ first :: middle,
      store.pending entry.1.runs run) (hsweep : ∀ entry ∈ middle, completes entry.2 = false)
    (hvisits : ∀ entry ∈ middle, ¬ visits store run entry.2) :
    Awaited store run (middle ++ first :: earlier) := by
  induction middle with
  | nil => exact ⟨hpending first List.mem_cons_self, .inl hstarts⟩
  | cons entry rest ih =>
    have hrest := ih
      (fun later hlater => hpending later (by
        rcases List.mem_cons.mp hlater with rfl | hlater
        · exact List.mem_cons_self
        · exact List.mem_cons_of_mem _ (List.mem_cons_of_mem _ hlater)))
      (fun later hlater => hsweep later (List.mem_cons_of_mem _ hlater))
      (fun later hlater => hvisits later (List.mem_cons_of_mem _ hlater))
    refine ⟨?_, .inr ⟨hrest, hsweep entry List.mem_cons_self, hvisits entry List.mem_cons_self⟩⟩
    exact hpending entry (List.mem_cons_of_mem _ List.mem_cons_self)

end Entries

section Coverage

variable {R W : Type} (store : PendingRunStore R W)

abbrev State (R W : Type) := World W × Journal R W

/-- The scan cursor has passed no run that awaits its visit. -/
def Unpassed (s : State R W) : Prop :=
  ∀ run, Awaited store run s.2 → ¬ store.behind s.1.control.scanCursor run

/-- What the other workers leave: the scan cursor, and the journal up to their own operations. -/
def CursorKept (s t : State R W) : Prop :=
  t.1.control.scanCursor = s.1.control.scanCursor ∧
    ∃ grown, t.2 = grown ++ s.2 ∧ ∀ entry ∈ grown, foreign entry.2.1 = true

def cursorDiscipline : Discipline (State R W) where
  inv := Unpassed store
  le := CursorKept
  refl s := ⟨rfl, [], rfl, by simp⟩
  trans a b c hab hbc := by
    obtain ⟨hcursor, grown, hgrown, hforeign⟩ := hab
    obtain ⟨hcursor', grown', hgrown', hforeign'⟩ := hbc
    refine ⟨hcursor'.trans hcursor, grown' ++ grown, ?_, ?_⟩
    · rw [hgrown', hgrown, List.append_assoc]
    · intro entry hentry
      rcases List.mem_append.mp hentry with hlate | hearly
      · exact hforeign' entry hlate
      · exact hforeign entry hearly

/-- A page at the scan cursor has been fetched, and its runs but those that remain visited. -/
def Fetched (page : StoredRunPage R) (rest : List R) (s : State R W) : Prop :=
  ∃ middle world limit earlier,
    s.2 = middle ++ (world, ⟨.listRecovery s.1.control.scanCursor limit, .ok page⟩) :: earlier ∧
    ∀ stored ∈ page.items, stored ∈ rest ∨ ∃ entry ∈ middle, entry.2.1 = .reconcileStored stored

/-- What awaits a visit is in the rest of the page, or the next cursor has not passed it. -/
structure InPage (page : StoredRunPage R) (rest : List R) (s : State R W) : Prop where
  fetched : Fetched page rest s
  covered : ∀ run, Awaited store run s.2 → (∃ stored ∈ rest, store.runId stored = run) ∨
    ∃ next, page.nextCursor = some next ∧ ¬ store.passed next run

/-- The scan cursor moves past a page that was fetched at it and whose runs were all visited. At
the end of a sweep no run awaits its visit. -/
def Moves (op : ReconcilerOp R) (s : State R W) (_ : op.Res) (t : State R W) : Prop :=
  match op with
  | .markReconcileResult _ next => t.1.control.scanCursor = next ∧
      (∃ page, next = page.nextCursor ∧ Fetched page [] s) ∧
      (next = none → ∀ run, ¬ Awaited store run s.2)
  | _ => t.1.control.scanCursor = s.1.control.scanCursor

variable {store} {page : StoredRunPage R} {rest : List R} {s t : State R W}
  {performed : Performed R}

theorem Unpassed.keep (h : Unpassed store s)
    (hcursor : t.1.control.scanCursor = s.1.control.scanCursor)
    (hjournal : t.2 = (s.1, performed) :: s.2) (hstarts : startsSweep performed = false) :
    Unpassed store t := by
  intro run hawaited
  rw [hjournal] at hawaited
  rw [hcursor]
  exact h run (hawaited.of_cons hstarts).1

theorem Fetched.grow {rest' : List R} (h : Fetched page rest s)
    (hcursor : t.1.control.scanCursor = s.1.control.scanCursor) {grown : Journal R W}
    (hjournal : t.2 = grown ++ s.2)
    (hrest : ∀ stored ∈ rest, stored ∈ rest' ∨ ∃ entry ∈ grown, entry.2.1 = .reconcileStored stored) :
    Fetched page rest' t := by
  obtain ⟨middle, world, limit, earlier, hs, hvisited⟩ := h
  refine ⟨grown ++ middle, world, limit, earlier, ?_, ?_⟩
  · rw [hjournal, hs, hcursor, List.append_assoc]
  · intro stored hstored
    rcases hvisited stored hstored with hremains | ⟨entry, hentry, hop⟩
    · rcases hrest stored hremains with hremains | ⟨entry, hentry, hop⟩
      · exact .inl hremains
      · exact .inr ⟨entry, List.mem_append_left _ hentry, hop⟩
    · exact .inr ⟨entry, List.mem_append_right _ hentry, hop⟩

theorem InPage.stable (h : InPage store page rest s) (hkept : CursorKept s t) :
    InPage store page rest t := by
  obtain ⟨hcursor, grown, hjournal, hforeign⟩ := hkept
  refine ⟨h.fetched.grow hcursor hjournal fun stored hstored => .inl hstored, ?_⟩
  intro run hawaited
  rw [hjournal] at hawaited
  exact h.covered run (hawaited.of_foreign hforeign)

theorem InPage.keep (h : InPage store page rest s)
    (hcursor : t.1.control.scanCursor = s.1.control.scanCursor)
    (hjournal : t.2 = (s.1, performed) :: s.2) (hstarts : startsSweep performed = false) :
    InPage store page rest t := by
  have happend : t.2 = [(s.1, performed)] ++ s.2 := hjournal
  refine ⟨h.fetched.grow hcursor happend fun stored hstored => .inl hstored, ?_⟩
  intro run hawaited
  rw [hjournal] at hawaited
  exact h.covered run (hawaited.of_cons hstarts).1

/-- A visit to the first of the remaining runs. -/
theorem InPage.visit {stored : R} {reply : Except Raised Unit}
    (h : InPage store page (stored :: rest) s)
    (hcursor : t.1.control.scanCursor = s.1.control.scanCursor)
    (hjournal : t.2 = (s.1, ⟨.reconcileStored stored, reply⟩) :: s.2) :
    InPage store page rest t := by
  have happend : t.2 = [(s.1, ⟨.reconcileStored stored, reply⟩)] ++ s.2 := hjournal
  constructor
  · refine h.fetched.grow hcursor happend ?_
    intro other hother
    rcases List.mem_cons.mp hother with rfl | hremains
    · exact .inr ⟨_, List.mem_singleton_self _, rfl⟩
    · exact .inl hremains
  · intro run hawaited
    rw [hjournal] at hawaited
    obtain ⟨hearlier, -, hvisits⟩ := hawaited.of_cons rfl
    rcases h.covered run hearlier with ⟨other, hother, hrun⟩ | hnext
    · rcases List.mem_cons.mp hother with rfl | hremains
      · exact absurd hrun hvisits
      · exact .inl ⟨other, hremains, hrun⟩
    · exact .inr hnext

def PageDone (store : PendingRunStore R W) (page : StoredRunPage R) :
    PageEnd → State R W → Prop
  | .stopped _, _ => True
  | .finished _ _, s => InPage store page [] s

theorem stable_true {α : Type} :
    Stable (cursorDiscipline store) (fun (_ : α) (_ : State R W) => True) :=
  fun _ _ _ _ _ => trivial

/-- A reading operation leaves the reconciler where it is. -/
theorem cursor_of_world (hworld : t.1 = s.1) :
    t.1.control.scanCursor = s.1.control.scanCursor := by
  rw [hworld]

abbrev Keeps {α : Type} (store : PendingRunStore R W) (Q : α → State R W → Prop)
    (p : Program R α) (s : State R W) : Prop :=
  Owned (services store).recorded (cursorDiscipline store) (Moves store) Q (fun _ _ => True) p s

theorem reconcileItems_keeps {failed : Bool} {processed : ℕ} (h : InPage store page rest s) :
    Keeps store (PageDone store page) (reconcileItems rest failed processed) s := by
  induction rest generalizing failed processed s with
  | nil => exact h
  | cons stored rest ih =>
    intro t hle hinv stopped t' ⟨⟨_, hworld⟩, hjournal⟩
    have hpage := (h.stable hle).keep (cursor_of_world hworld) hjournal rfl
    refine ⟨hinv.keep (cursor_of_world hworld) hjournal rfl, cursor_of_world hworld, ?_⟩
    cases stopped with
    | true => trivial
    | false =>
      intro u hle hinv stopped u' ⟨⟨_, hworld⟩, hjournal⟩
      have hpage := (hpage.stable hle).keep (cursor_of_world hworld) hjournal rfl
      refine ⟨hinv.keep (cursor_of_world hworld) hjournal rfl, cursor_of_world hworld, ?_⟩
      cases stopped with
      | true => trivial
      | false =>
        intro v hle hinv reconciled v' ⟨hcontrol, hjournal⟩
        have hcursor : v'.1.control.scanCursor = v.1.control.scanCursor :=
          congrArg Control.scanCursor hcontrol
        have hvisited := (hpage.stable hle).visit hcursor hjournal
        refine ⟨hinv.keep hcursor hjournal rfl, hcursor, ?_⟩
        cases reconciled with
        | ok done => exact ih hvisited
        | error e =>
          show Owned _ _ _ _ _ (if e.conflicts then _ else if e.handled then _ else _) _
          cases e.conflicts with
          | true => exact ih hvisited
          | false =>
            cases e.handled with
            | true => exact ih hvisited
            | false => trivial

theorem finishPage_keeps {ending : PageEnd} (h : PageDone store page ending s) :
    Keeps store (fun _ _ => True) (finishPage page.nextCursor ending) s := by
  cases ending with
  | stopped processed => trivial
  | finished failed processed =>
    intro t hle hinv reply t' ⟨hworld, hjournal⟩
    have hpage : InPage store page [] t := InPage.stable h hle
    have hcursor : t'.1.control.scanCursor = page.nextCursor := by
      rw [hworld]
      cases page.nextCursor <;> rfl
    have hnext : ∀ run, Awaited store run t.2 → ¬ store.behind page.nextCursor run := by
      intro run hawaited
      rcases hpage.covered run hawaited with ⟨stored, hstored, -⟩ | ⟨next, hnext, hpassed⟩
      · cases hstored
      · rintro ⟨text, htext, hbehind⟩
        rw [hnext, Option.some.injEq] at htext
        exact hpassed (htext ▸ hbehind)
    refine ⟨?_, ⟨hcursor, ⟨page, rfl, hpage.fetched⟩, ?_⟩, trivial⟩
    · intro run hawaited
      rw [hjournal] at hawaited
      rw [hcursor]
      exact hnext run (hawaited.of_cons rfl).1
    · intro hnone run hawaited
      rcases hpage.covered run hawaited with ⟨stored, hstored, -⟩ | ⟨next, hsome, -⟩
      · cases hstored
      · rw [hnone] at hsome
        cases hsome

theorem reconcilePage_keeps {pageSize : ℕ} :
    Keeps store (fun _ _ => True) (reconcilePage pageSize) s := by
  intro t hle hinv cursor t' ⟨⟨hread, hworld⟩, hjournal⟩
  refine ⟨hinv.keep (cursor_of_world hworld) hjournal rfl, cursor_of_world hworld, ?_⟩
  have hcursor : t'.1.control.scanCursor = cursor := by rw [hworld, hread]
  intro u hle hinv listed u' ⟨⟨hlisted, hworld⟩, hjournal⟩
  have hcursor : u.1.control.scanCursor = cursor := hle.1.trans hcursor
  cases listed with
  | error e =>
    refine ⟨hinv.keep (cursor_of_world hworld) hjournal ?_, cursor_of_world hworld, ?_⟩
    · cases cursor <;> rfl
    · show Owned _ _ _ _ _ (if e.fromStore then _ else _) _
      cases e.fromStore with
      | false => trivial
      | true =>
        intro v hle hinv reply v' ⟨hworld, hjournal⟩
        have hcursor : v'.1.control.scanCursor = v.1.control.scanCursor := by
          rw [hworld]
          rfl
        exact ⟨hinv.keep hcursor hjournal rfl, hcursor, trivial⟩
  | ok page =>
    have hlater : ∀ run, Awaited store run u'.2 →
        store.pending u.1.runs run ∧ ¬ store.behind cursor run := by
      intro run hawaited
      rw [hjournal] at hawaited
      refine ⟨hawaited.1, ?_⟩
      rcases hawaited.2 with hstarts | ⟨hearlier, -, -⟩
      · cases cursor with
        | none => rintro ⟨text, htext, -⟩; cases htext
        | some text => cases hstarts
      · rw [← hcursor]
        exact hinv run hearlier
    refine ⟨?_, cursor_of_world hworld, ?_⟩
    · intro run hawaited
      rw [cursor_of_world hworld, hcursor]
      exact (hlater run hawaited).2
    · have hpage : InPage store page page.items u' := by
        constructor
        · refine ⟨[], u.1, pageSize, u.2, ?_, fun stored hstored => .inl hstored⟩
          rw [hjournal, cursor_of_world hworld, hcursor, List.nil_append]
        · intro run hawaited
          obtain ⟨hpending, hbehind⟩ := hlater run hawaited
          refine store.covers _ _ _ _ _ (hlisted page rfl) hpending ?_
          exact fun text htext hpassed => hbehind ⟨text, htext, hpassed⟩
      exact (reconcileItems_keeps hpage).bind fun ending after hdone => finishPage_keeps hdone

theorem reconcilePages_keeps {pageSize pages processed : ℕ} :
    Keeps store (fun _ _ => True) (reconcilePages pageSize pages processed) s := by
  induction pages generalizing processed s with
  | zero => trivial
  | succ pages ih =>
    intro t hle hinv stopped t' ⟨⟨_, hworld⟩, hjournal⟩
    refine ⟨hinv.keep (cursor_of_world hworld) hjournal rfl, cursor_of_world hworld, ?_⟩
    cases stopped with
    | true => trivial
    | false =>
      refine (reconcilePage_keeps (s := t')).bind fun page after _ => ?_
      show Owned _ _ _ _ _ (if page.2 then _ else _) _
      cases page.2 with
      | true => exact ih
      | false => trivial

theorem threadEnds_keeps {α : Type} {p : Program R α} (hp : ∀ s, Keeps store (fun _ _ => True) p s) :
    Keeps store (fun _ _ => True) (.call .threadEnds fun _ => p) s := by
  intro t hle hinv reply t' ⟨hworld, hjournal⟩
  have hcursor : t'.1.control.scanCursor = t.1.control.scanCursor := by rw [hworld]
  exact ⟨hinv.keep hcursor hjournal rfl, hcursor, hp t'⟩

theorem reconciles_keeps {pageSize : ℕ} {call : ControlCall} (hcall : call.reconciles = true) :
    Keeps store (fun _ _ => True) (body pageSize call) s := by
  cases call with
  | reconcileOnce => exact reconcilePages_keeps
  | reconcileLoop =>
    intro t hle hinv stopped t' ⟨⟨_, hworld⟩, hjournal⟩
    refine ⟨hinv.keep (cursor_of_world hworld) hjournal rfl, cursor_of_world hworld, ?_⟩
    cases stopped with
    | true => exact threadEnds_keeps fun _ => trivial
    | false =>
      refine (reconcilePages_keeps (s := t')).tryCatch fun e after _ => ?_
      exact threadEnds_keeps fun _ => trivial
  | startReconciler => cases hcall
  | close => cases hcall
  | mutate => cases hcall

/-- Starting the reconciler changes its thread only, and revives no thread. -/
theorem startReconciler_control (control : Control) : ∃ thread,
    control.startReconciler.2 = { control with thread := thread } ∧
      (thread = .dead ↔ control.thread = .dead) := by
  unfold Control.startReconciler
  by_cases hclosed : control.closed = true
  · rw [if_pos hclosed]
    exact ⟨control.thread, rfl, Iff.rfl⟩
  · rw [if_neg hclosed]
    by_cases habsent : control.thread = .absent
    · rw [if_pos habsent]
      exact ⟨.alive, rfl, by simp [habsent]⟩
    · rw [if_neg habsent]
      exact ⟨control.thread, rfl, Iff.rfl⟩

theorem cursor_of_foreign {op : ReconcilerOp R} {world world' : World W} {reply : op.Res}
    (hforeign : foreign op = true) (hstep : (services store).step op world reply world') :
    world'.control.scanCursor = world.control.scanCursor := by
  cases op with
  | startReconciler =>
    obtain ⟨hcontrol, -⟩ := hstep
    obtain ⟨thread, hstarted, -⟩ := startReconciler_control world.control
    have hcontrol' : world'.control = { world.control with thread := thread } := by
      rw [← hstarted, hcontrol]
    rw [hcontrol']
  | setClosed => rw [show world' = _ from hstep]
  | setStop => rw [show world' = _ from hstep]
  | changeRuns => exact congrArg Control.scanCursor hstep
  | _ => cases hforeign

theorem cursor_kept {op : ReconcilerOp R} {reply : op.Res} (hforeign : foreign op = true)
    (hinv : Unpassed store s) (hstep : (services store).recorded.step op s reply t) :
    Unpassed store t ∧ CursorKept s t := by
  obtain ⟨hstep, hjournal⟩ := hstep
  have hcursor := cursor_of_foreign hforeign hstep
  refine ⟨hinv.keep hcursor hjournal (startsSweep_of_foreign hforeign), hcursor,
    [(s.1, ⟨op, reply⟩)], hjournal, ?_⟩
  intro entry hentry
  rw [List.mem_singleton] at hentry
  rw [hentry]
  exact hforeign

end Coverage

section Others

variable {R W : Type}

theorem others_only {pageSize : ℕ} {call : ControlCall} (hcall : call.reconciles = false) :
    (body (R := R) pageSize call).Only fun op => foreign op = true := by
  cases call with
  | reconcileOnce => cases hcall
  | reconcileLoop => cases hcall
  | startReconciler =>
    refine ⟨rfl, fun reply => ?_⟩
    cases reply <;> trivial
  | close => exact ⟨rfl, fun _ => ⟨rfl, fun _ => trivial⟩⟩
  | mutate => exact ⟨rfl, fun _ => trivial⟩

theorem OneReconciler.other {cfg : Process R W} {i pageSize : ℕ} {call : ControlCall}
    (h : OneReconciler cfg (.issued i call)) (hi : i ≠ 0) :
    (body (R := R) pageSize call).Only fun op => foreign op = true := by
  apply others_only
  rw [← Bool.not_eq_true]
  exact fun hcall => hi ((h.2 i call rfl).mpr hcall)

variable (store : PendingRunStore R W) (pageSize : ℕ)

theorem oneReconciler_admits : Admits (services store).recorded (cursorDiscipline store)
    (Moves store) (fun _ _ _ => True) (fun _ _ _ => True) (fun op => foreign op = true)
    (fun _ => True) 0 (body pageSize) OneReconciler where
  stable _ _ _ _ := trivial
  returned _ := stable_true
  raised _ := stable_true
  kept _ _ _ _ hforeign hinv hstep := cursor_kept hforeign hinv hstep
  crashed _ h := h.1 rfl
  issued _ call h _ _ := reconciles_keeps ((h.2 0 call rfl).mp rfl)
  other _ _ _ h hi := h.other hi
  ended _ _ _ _ _ := trivial
  failed _ _ _ _ _ := trivial

variable {store pageSize} {w : W} {events : List (ProcessEvent R)} {cfg cfg' : Process R W}
  {event : ProcessEvent R}

theorem process_cursor (run : Run (services store).recorded (body pageSize) OneReconciler
    (.start (⟨.fresh, w⟩, [])) events cfg) :
    PoolOwned (services store).recorded (cursorDiscipline store) (Moves store)
      (fun _ _ _ => True) (fun _ _ _ => True) (fun op => foreign op = true) (fun _ => True) 0 cfg := by
  refine run.owned (oneReconciler_admits store pageSize) (.start ?_ trivial)
  intro run hawaited
  cases hawaited

/-- What a step does to the scan cursor. -/
theorem moves_of_step (run : Run (services store).recorded (body pageSize) OneReconciler
    (.start (⟨.fresh, w⟩, [])) events cfg)
    (next : Step (services store).recorded (body pageSize) cfg event cfg') :
    cfg'.state.1.control.scanCursor = cfg.state.1.control.scanCursor ∨
      ∃ i call op reply, event = .performed i call op reply ∧
        Moves store op cfg.state reply cfg'.state := by
  have howned := process_cursor run
  cases hevent : event with
  | issued i call => cases next <;> first | exact .inl rfl | cases hevent
  | crashed i => cases next <;> first | exact .inl rfl | cases hevent
  | finished i call out => cases next <;> first | exact .inl rfl | cases hevent
  | performed i call op reply =>
    subst hevent
    obtain ⟨hmoves, hforeign⟩ := howned.promised next
    by_cases hi : i = 0
    · exact .inr ⟨i, call, op, reply, rfl, hmoves hi⟩
    · have hother := hforeign hi
      cases next with
      | perform _ _ _ next _ s' live done => exact .inl (cursor_of_foreign hother done.1)

end Others

end Dander.Reconciliation
