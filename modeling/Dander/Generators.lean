import Mathlib.Data.List.Basic
import Mathlib.Tactic.Common

/-!
# Generators

What a generator yields before it returns or raises, and loops of generators: a round yields items
and either ends or goes on from another state.
-/
namespace Generator

variable {ε α β S : Type}

structure Trace (ε α : Type) where
  items : List α
  outcome : Except ε Unit

def Trace.nil : Trace ε α := ⟨[], .ok ()⟩

def Trace.raised (error : ε) : Trace ε α := ⟨[], .error error⟩

/-- The second generator runs once the first has returned. -/
def Trace.andThen (first second : Trace ε α) : Trace ε α :=
  match first.outcome with
  | .ok () => ⟨first.items ++ second.items, second.outcome⟩
  | .error error => ⟨first.items, .error error⟩

theorem Trace.andThen_of_ok {first second : Trace ε α} (h : first.outcome = .ok ()) :
    first.andThen second = ⟨first.items ++ second.items, second.outcome⟩ := by
  simp only [andThen, h]

theorem Trace.andThen_of_error {first second : Trace ε α} {error : ε}
    (h : first.outcome = .error error) : first.andThen second = first := by
  obtain ⟨items, outcome⟩ := first
  obtain rfl : outcome = .error error := h
  rfl

theorem Trace.andThen_assoc (first second third : Trace ε α) :
    (first.andThen second).andThen third = first.andThen (second.andThen third) := by
  obtain ⟨items, outcome⟩ := first
  obtain ⟨items', outcome'⟩ := second
  cases outcome with
  | error error => rfl
  | ok _ => cases outcome' <;> simp [andThen]

/-- `for item in items: yield f(item)` -/
def yieldAll (f : α → Except ε β) : List α → Trace ε β
  | [] => .nil
  | item :: rest =>
    match f item with
    | .error error => .raised error
    | .ok value => Trace.andThen ⟨[value], .ok ()⟩ (yieldAll f rest)

theorem yieldAll_append (f : α → Except ε β) (first second : List α) :
    yieldAll f (first ++ second) = (yieldAll f first).andThen (yieldAll f second) := by
  induction first with
  | nil => rfl
  | cons item rest ih =>
    simp only [List.cons_append, yieldAll]
    cases f item with
    | error error => rfl
    | ok value => rw [ih, Trace.andThen_assoc]

/-- The rounds of a loop, or none if it has not ended after so many of them. -/
def loop (round : S → Trace ε α × Option S) : ℕ → S → Option (Trace ε α)
  | 0, _ => none
  | count + 1, state =>
    match round state with
    | (trace, none) => some trace
    | (trace, some next) =>
      match trace.outcome with
      | .error _ => some trace
      | .ok () => (loop round count next).map trace.andThen

/-- A round that ends the loop with the expected trace, or that does its part of it and leaves
less to do. -/
def Advances (round : S → Trace ε α × Option S) (expected : S → Trace ε α) (size : S → ℕ)
    (keeps : S → Prop) (state : S) : Prop :=
  round state = (expected state, none) ∨ ∃ trace next, round state = (trace, some next) ∧
    keeps next ∧ size next < size state ∧ expected state = trace.andThen (expected next)

/-- A loop whose rounds advance ends with the expected trace. -/
theorem loop_of_advances {round : S → Trace ε α × Option S} {expected : S → Trace ε α}
    {size : S → ℕ} {keeps : S → Prop}
    (hround : ∀ state, keeps state → Advances round expected size keeps state)
    {count : ℕ} {state : S} (hkeeps : keeps state) (hcount : size state < count) :
    loop round count state = some (expected state) := by
  induction count generalizing state with
  | zero => omega
  | succ count ih =>
    rcases hround state hkeeps with hlast | ⟨trace, next, hnext, hkept, hsize, hexpected⟩
    · simp only [loop, hlast]
    · have hrest := ih hkept (by omega)
      simp only [loop, hnext, hrest, Option.map_some]
      rw [hexpected]
      cases houtcome : trace.outcome with
      | error error => rw [Trace.andThen_of_error houtcome]
      | ok _ => rfl

end Generator
