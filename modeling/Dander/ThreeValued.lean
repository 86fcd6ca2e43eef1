import Mathlib.Data.Option.Basic

/-!
# Conditions over missing values

A condition holds, fails, or is unknown when it compares a missing value. A filter keeps what a
condition holds of.
-/
namespace ThreeValued

variable {V : Type}

def conjunction : Option Bool → Option Bool → Option Bool
  | some false, _ => some false
  | _, some false => some false
  | some true, some true => some true
  | _, _ => none

def negation (condition : Option Bool) : Option Bool := condition.map not

def all (conditions : List (Option Bool)) : Option Bool :=
  conditions.foldr conjunction (some true)

def compare (relation : V → V → Bool) (a b : Option V) : Option Bool :=
  match a, b with
  | some a, some b => some (relation a b)
  | _, _ => none

def equal [DecidableEq V] (a b : Option V) : Option Bool := compare (fun a b => decide (a = b)) a b

/-- What a filter keeps. -/
def holds (condition : Option Bool) : Bool := condition == some true

@[simp] theorem holds_iff (condition : Option Bool) :
    holds condition = true ↔ condition = some true := by
  simp [holds]

@[simp] theorem conjunction_eq_true (a b : Option Bool) :
    conjunction a b = some true ↔ a = some true ∧ b = some true := by
  cases a with
  | none => cases b with
    | none => simp [conjunction]
    | some b => cases b <;> simp [conjunction]
  | some a => cases b with
    | none => cases a <;> simp [conjunction]
    | some b => cases a <;> cases b <;> simp [conjunction]

@[simp] theorem all_nil : all [] = some true := rfl

@[simp] theorem all_cons_eq_true (a : Option Bool) (rest : List (Option Bool)) :
    all (a :: rest) = some true ↔ a = some true ∧ all rest = some true :=
  conjunction_eq_true a (all rest)

theorem all_eq_true (conditions : List (Option Bool)) :
    all conditions = some true ↔ ∀ condition ∈ conditions, condition = some true := by
  induction conditions with
  | nil => simp
  | cons a rest ih => simp [ih]

theorem compare_eq_true {relation : V → V → Bool} {a b : Option V} :
    compare relation a b = some true ↔ ∃ x y, a = some x ∧ b = some y ∧ relation x y = true := by
  cases a with
  | none => simp [compare]
  | some x => cases b with
    | none => simp [compare]
    | some y => simp [compare]

theorem equal_eq_true [DecidableEq V] {a b : Option V} :
    equal a b = some true ↔ a.isSome = true ∧ a = b := by
  rw [equal, compare_eq_true]
  constructor
  · rintro ⟨x, y, rfl, rfl, hxy⟩
    simpa using hxy
  · rintro ⟨hsome, rfl⟩
    obtain ⟨x, rfl⟩ := Option.isSome_iff_exists.mp hsome
    exact ⟨x, x, rfl, rfl, by simp⟩

/-- A condition that is not known to hold, read as failing, fails. -/
@[simp] theorem negation_getD (condition : Option Bool) :
    negation (some (condition.getD false)) = some true ↔ condition ≠ some true := by
  cases condition with
  | none => simp [negation]
  | some b => cases b <;> simp [negation]

end ThreeValued
