import Mathlib.Data.List.Basic
import Mathlib.Tactic.Common

/-!
# Scripts with transactions

A script is a list of statements over a database and the script's own variables. What the
statements between a begin and a commit change is stored by the commit. A statement that fails
ends the script, and what an open transaction has changed is lost.
-/
namespace TransactionScript

variable {D L E : Type}

/-- A statement that reads and writes the database and the variables. -/
abbrev Action (D L E : Type) : Type := D → L → Except E (D × L)

inductive Statement (D L E : Type) where
  | beginTransaction
  | commitTransaction
  | act (action : Action D L E)

inductive ScriptError (E : Type) where
  | nestedTransaction
  | noTransaction
  | statement (error : E)
  deriving DecidableEq

structure Session (D L : Type) where
  stored : D
  working : Option D
  locals : L

/-- What a statement sees: the database as the open transaction has changed it. -/
def Session.database (session : Session D L) : D := session.working.getD session.stored

def Session.update (session : Session D L) (database : D) (locals : L) : Session D L :=
  match session.working with
  | none => ⟨database, none, locals⟩
  | some _ => ⟨session.stored, some database, locals⟩

@[simp] theorem Session.database_outside (stored : D) (locals : L) :
    (⟨stored, none, locals⟩ : Session D L).database = stored := rfl

@[simp] theorem Session.database_within (stored working : D) (locals : L) :
    (⟨stored, some working, locals⟩ : Session D L).database = working := rfl

@[simp] theorem Session.update_outside (stored database : D) (locals locals' : L) :
    (⟨stored, none, locals⟩ : Session D L).update database locals' =
      ⟨database, none, locals'⟩ := rfl

@[simp] theorem Session.update_within (stored working database : D) (locals locals' : L) :
    (⟨stored, some working, locals⟩ : Session D L).update database locals' =
      ⟨stored, some database, locals'⟩ := rfl

@[simp] theorem Session.database_update (session : Session D L) (database : D) (locals : L) :
    (session.update database locals).database = database := by
  obtain ⟨stored, working, locals'⟩ := session
  cases working <;> rfl

@[simp] theorem Session.locals_update (session : Session D L) (database : D) (locals : L) :
    (session.update database locals).locals = locals := by
  obtain ⟨stored, working, locals'⟩ := session
  cases working <;> rfl

@[simp] theorem Session.update_update (session : Session D L) (database database' : D)
    (locals locals' : L) :
    (session.update database locals).update database' locals' =
      session.update database' locals' := by
  obtain ⟨stored, working, locals''⟩ := session
  cases working <;> rfl

/-- What a script leaves stored, with the variables at its end or the error that ended it. -/
structure Outcome (D L E : Type) where
  stored : D
  result : Except (ScriptError E) L

def step : Statement D L E → Session D L → Except (ScriptError E) (Session D L)
  | .beginTransaction, session =>
    match session.working with
    | none => .ok { session with working := some session.stored }
    | some _ => .error .nestedTransaction
  | .commitTransaction, session =>
    match session.working with
    | none => .error .noTransaction
    | some database => .ok ⟨database, none, session.locals⟩
  | .act action, session =>
    match action session.database session.locals with
    | .ok (database, locals) => .ok (session.update database locals)
    | .error error => .error (.statement error)

/-- Runs a script. An interrupt ends it with an error before the statement it counts down to. -/
def execute : Option (ℕ × E) → List (Statement D L E) → Session D L → Outcome D L E
  | _, [], session => ⟨session.stored, .ok session.locals⟩
  | some (0, error), _ :: _, session => ⟨session.stored, .error (.statement error)⟩
  | some (count + 1, error), statement :: rest, session =>
    match step statement session with
    | .ok session' => execute (some (count, error)) rest session'
    | .error error => ⟨session.stored, .error error⟩
  | none, statement :: rest, session =>
    match step statement session with
    | .ok session' => execute none rest session'
    | .error error => ⟨session.stored, .error error⟩

/-- The actions one after the other. -/
def block : List (Action D L E) → Action D L E
  | [], database, locals => .ok (database, locals)
  | action :: rest, database, locals =>
    match action database locals with
    | .ok (database', locals') => block rest database' locals'
    | .error error => .error error

def script (actions : List (Action D L E)) : List (Statement D L E) := actions.map .act

/-- A condition that has to hold. Evaluating it may fail by itself. -/
def assert (condition : D → L → Except E Bool) (error : E) : Action D L E := fun database locals =>
  match condition database locals with
  | .ok true => .ok (database, locals)
  | .ok false => .error error
  | .error error => .error error

/-- A statement that only sets variables. -/
def assign (value : D → L → L) : Action D L E := fun database locals =>
  .ok (database, value database locals)

def KeepsDatabase (action : Action D L E) : Prop :=
  ∀ database locals database' locals', action database locals = .ok (database', locals') →
    database' = database

theorem keepsDatabase_assign (value : D → L → L) : KeepsDatabase (assign value : Action D L E) := by
  intro database locals database' locals' h
  simp only [assign, Except.ok.injEq, Prod.mk.injEq] at h
  exact h.1.symm

@[simp] theorem script_nil : script ([] : List (Action D L E)) = [] := rfl

@[simp] theorem script_cons (action : Action D L E) (rest : List (Action D L E)) :
    script (action :: rest) = .act action :: script rest := rfl

section Blocks

variable {first second : List (Action D L E)} {database database' : D} {locals locals' : L}

theorem block_append : block (first ++ second) database locals =
    match block first database locals with
    | .ok (database', locals') => block second database' locals'
    | .error error => .error error := by
  induction first generalizing database locals with
  | nil => rfl
  | cons action rest ih =>
    simp only [List.cons_append, block]
    cases action database locals with
    | error error => rfl
    | ok pair => exact ih

theorem assert_eq_ok {condition : D → L → Except E Bool} {error : E} :
    assert condition error database locals = .ok (database', locals') ↔
      condition database locals = .ok true ∧ database' = database ∧ locals' = locals := by
  unfold assert
  match hcondition : condition database locals with
  | .error error => simp
  | .ok true => simp [eq_comm]
  | .ok false => simp

/-- A block of assertions changes nothing, and goes through when all conditions hold. -/
theorem block_asserts (asserts : List ((D → L → Except E Bool) × E)) :
    block (asserts.map fun a => assert a.1 a.2) database locals = .ok (database', locals') ↔
      (∀ a ∈ asserts, a.1 database locals = .ok true) ∧ database' = database ∧
        locals' = locals := by
  induction asserts with
  | nil => simp [block, eq_comm]
  | cons a rest ih =>
    simp only [List.map_cons, block, List.forall_mem_cons, and_assoc]
    by_cases ha : a.1 database locals = .ok true
    · have hassert : assert a.1 a.2 database locals = .ok (database, locals) :=
        assert_eq_ok.mpr ⟨ha, rfl, rfl⟩
      simp only [hassert, ha, true_and, ih]
    · simp only [ha, false_and, iff_false]
      cases hassert : assert a.1 a.2 database locals with
      | error error => simp
      | ok pair => exact absurd (assert_eq_ok.mp hassert).1 ha

theorem block_append_eq_ok {result : D × L} :
    block (first ++ second) database locals = .ok result ↔
      ∃ database' locals', block first database locals = .ok (database', locals') ∧
        block second database' locals' = .ok result := by
  rw [block_append]
  cases block first database locals with
  | error error => simp
  | ok pair =>
    constructor
    · intro h
      exact ⟨pair.1, pair.2, rfl, h⟩
    · rintro ⟨database', locals', hpair, h⟩
      rw [Except.ok.injEq] at hpair
      subst hpair
      exact h

theorem block_cons_eq_ok {action : Action D L E} {result : D × L} :
    block (action :: first) database locals = .ok result ↔
      ∃ database' locals', action database locals = .ok (database', locals') ∧
        block first database' locals' = .ok result := by
  simp only [block]
  cases action database locals with
  | error error => simp
  | ok pair => simp [Prod.ext_iff]

end Blocks

section Executions

attribute [local simp] execute

/-- A script with one transaction. -/
def transaction (before body after : List (Action D L E)) : List (Statement D L E) :=
  script before ++ .beginTransaction :: (script body ++ .commitTransaction :: script after)

/-- A script stopped before it stored anything. -/
def Outcome.RolledBack (outcome : Outcome D L E) (stored : D) : Prop :=
  outcome.stored = stored ∧ ∃ error, outcome.result = .error error

/-- A statement is interrupted, fails, or takes its step. -/
theorem execute_cons (interrupt : Option (ℕ × E)) (statement : Statement D L E)
    (rest : List (Statement D L E)) (session : Session D L) :
    (execute interrupt (statement :: rest) session).RolledBack session.stored ∨
      ∃ session' later, step statement session = .ok session' ∧
        execute interrupt (statement :: rest) session = execute later rest session' := by
  match interrupt with
  | some (0, error) => exact .inl ⟨rfl, _, rfl⟩
  | some (count + 1, error) =>
    cases hstep : step statement session with
    | error error => exact .inl (by simp [execute, hstep, Outcome.RolledBack])
    | ok session' =>
      refine .inr ⟨session', some (count, error), rfl, ?_⟩
      simp [execute, hstep]
  | none =>
    cases hstep : step statement session with
    | error error => exact .inl (by simp [execute, hstep, Outcome.RolledBack])
    | ok session' =>
      refine .inr ⟨session', none, rfl, ?_⟩
      simp [execute, hstep]

theorem step_act_eq_ok {action : Action D L E} {session session' : Session D L}
    (h : step (.act action) session = .ok session') :
    ∃ database locals, action session.database session.locals = .ok (database, locals) ∧
      session' = session.update database locals := by
  simp only [step] at h
  cases haction : action session.database session.locals with
  | error error =>
    rw [haction] at h
    cases h
  | ok pair =>
    rw [haction] at h
    simp only [Except.ok.injEq] at h
    exact ⟨pair.1, pair.2, rfl, h.symm⟩

/-- Statements within a transaction leave the stored database. -/
theorem execute_within (actions : List (Action D L E)) (rest : List (Statement D L E))
    (interrupt : Option (ℕ × E)) (stored working : D) (locals : L) :
    (execute interrupt (script actions ++ rest) ⟨stored, some working, locals⟩).RolledBack
        stored ∨
      ∃ working' locals' later, block actions working locals = .ok (working', locals') ∧
        execute interrupt (script actions ++ rest) ⟨stored, some working, locals⟩ =
          execute later rest ⟨stored, some working', locals'⟩ := by
  induction actions generalizing working locals interrupt with
  | nil => exact .inr ⟨working, locals, interrupt, rfl, rfl⟩
  | cons action actions ih =>
    obtain hback | ⟨session', later, hstep, hrun⟩ := execute_cons interrupt (.act action)
      (script actions ++ rest) ⟨stored, some working, locals⟩
    · exact .inl hback
    · obtain ⟨working', locals', haction, rfl⟩ := step_act_eq_ok hstep
      simp only [Session.database_within] at haction
      simp only [script_cons, List.cons_append, block, haction, hrun, Session.update_within]
      exact ih later working' locals'

/-- So do statements outside of a transaction that only set variables. -/
theorem execute_outside (actions : List (Action D L E)) (rest : List (Statement D L E))
    (hkeeps : ∀ action ∈ actions, KeepsDatabase action)
    (interrupt : Option (ℕ × E)) (stored : D) (locals : L) :
    (execute interrupt (script actions ++ rest) ⟨stored, none, locals⟩).RolledBack stored ∨
      ∃ locals' later, block actions stored locals = .ok (stored, locals') ∧
        execute interrupt (script actions ++ rest) ⟨stored, none, locals⟩ =
          execute later rest ⟨stored, none, locals'⟩ := by
  induction actions generalizing locals interrupt with
  | nil => exact .inr ⟨locals, interrupt, rfl, rfl⟩
  | cons action actions ih =>
    obtain hback | ⟨session', later, hstep, hrun⟩ := execute_cons interrupt (.act action)
      (script actions ++ rest) ⟨stored, none, locals⟩
    · exact .inl hback
    · obtain ⟨stored', locals', haction, rfl⟩ := step_act_eq_ok hstep
      simp only [Session.database_outside] at haction
      have hsame := hkeeps action (by simp) stored locals stored' locals' haction
      subst hsame
      simp only [script_cons, List.cons_append, block, haction, hrun, Session.update_outside]
      exact ih (fun action h => hkeeps action (List.mem_cons_of_mem _ h)) later locals'

/-- What a script with one transaction leaves: all of its body or nothing. -/
theorem execute_transaction (before body after : List (Action D L E))
    (hbefore : ∀ action ∈ before, KeepsDatabase action)
    (hafter : ∀ action ∈ after, KeepsDatabase action)
    (interrupt : Option (ℕ × E)) (stored : D) (locals : L) :
    (execute interrupt (transaction before body after) ⟨stored, none, locals⟩).RolledBack
        stored ∨
      ∃ locals₁ working locals₂, block before stored locals = .ok (stored, locals₁) ∧
        block body stored locals₁ = .ok (working, locals₂) ∧
        (execute interrupt (transaction before body after) ⟨stored, none, locals⟩).stored =
          working ∧
        ∀ result, (execute interrupt (transaction before body after)
          ⟨stored, none, locals⟩).result = .ok result →
            block after working locals₂ = .ok (working, result) := by
  unfold transaction
  obtain hback | ⟨locals₁, later₁, hblock₁, hrun₁⟩ := execute_outside before
    (.beginTransaction :: (script body ++ .commitTransaction :: script after)) hbefore
    interrupt stored locals
  · exact .inl hback
  rw [hrun₁]
  obtain hback | ⟨session, later₂, hstep, hrun₂⟩ := execute_cons later₁ .beginTransaction
    (script body ++ .commitTransaction :: script after) ⟨stored, none, locals₁⟩
  · exact .inl hback
  simp only [step, Except.ok.injEq] at hstep
  subst hstep
  rw [hrun₂]
  obtain hback | ⟨working, locals₂, later₃, hblock₂, hrun₃⟩ := execute_within body
    (.commitTransaction :: script after) later₂ stored stored locals₁
  · exact .inl hback
  rw [hrun₃]
  obtain hback | ⟨session, later₄, hstep, hrun₄⟩ := execute_cons later₃ .commitTransaction
    (script after) ⟨stored, some working, locals₂⟩
  · exact .inl hback
  simp only [step, Except.ok.injEq] at hstep
  subst hstep
  rw [hrun₄]
  refine .inr ⟨locals₁, working, locals₂, hblock₁, hblock₂, ?_⟩
  have hlast := execute_outside after [] hafter later₄ working locals₂
  rw [List.append_nil] at hlast
  obtain ⟨hstored, error, herror⟩ | ⟨locals₃, later₅, hblock₃, hrun₅⟩ := hlast
  · refine ⟨hstored, ?_⟩
    intro result hresult
    rw [herror] at hresult
    cases hresult
  · have hout : execute later₅ ([] : List (Statement D L E)) ⟨working, none, locals₃⟩ =
        ⟨working, .ok locals₃⟩ := by
      cases later₅ <;> rfl
    rw [hrun₅, hout]
    refine ⟨rfl, ?_⟩
    intro result hresult
    simp only [Except.ok.injEq] at hresult
    subst hresult
    exact hblock₃

/-- Without an interrupt statements run as their block does. -/
theorem execute_none_script {actions : List (Action D L E)} {database : D} {locals : L}
    (session : Session D L) (rest : List (Statement D L E))
    (h : block actions session.database session.locals = .ok (database, locals)) :
    execute none (script actions ++ rest) session =
      execute none rest (session.update database locals) := by
  induction actions generalizing session with
  | nil =>
    simp only [block, Except.ok.injEq, Prod.mk.injEq] at h
    obtain ⟨rfl, rfl⟩ := h
    obtain ⟨stored, working, locals⟩ := session
    cases working <;> rfl
  | cons action actions ih =>
    simp only [block] at h
    cases haction : action session.database session.locals with
    | error error =>
      rw [haction] at h
      cases h
    | ok pair =>
      obtain ⟨database', locals'⟩ := pair
      rw [haction] at h
      have hrest := ih (session.update database' locals') (by simpa using h)
      simpa [execute, step, haction] using hrest

/-- Without an interrupt a script goes through when its blocks do. -/
theorem execute_transaction_of_ok {before body after : List (Action D L E)}
    {stored stored₁ working result : D} {locals locals₁ locals₂ locals₃ : L}
    (hbefore : block before stored locals = .ok (stored₁, locals₁))
    (hbody : block body stored₁ locals₁ = .ok (working, locals₂))
    (hafter : block after working locals₂ = .ok (result, locals₃)) :
    execute none (transaction before body after) ⟨stored, none, locals⟩ =
      ⟨result, .ok locals₃⟩ := by
  have hfirst := execute_none_script ⟨stored, none, locals⟩
    (.beginTransaction :: (script body ++ .commitTransaction :: script after)) hbefore
  have hsecond := execute_none_script ⟨stored₁, some stored₁, locals₁⟩
    (.commitTransaction :: script after) hbody
  have hthird := execute_none_script ⟨working, none, locals₂⟩ [] hafter
  rw [List.append_nil] at hthird
  simp only [Session.update_outside, Session.update_within] at hfirst hsecond hthird
  rw [transaction, hfirst, execute, step]
  simp only [hsecond]
  rw [execute, step]
  simp only [hthird]
  rfl

end Executions

end TransactionScript
