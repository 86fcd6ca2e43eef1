import Mathlib.Logic.Function.Basic
import Mathlib.Tactic.Common

/-!
# Raising computations and runs of deterministic systems

Inversion of computations that may raise, and the induction every safety result
about a system that takes one event after another goes through: what one event
keeps under its condition, every run whose events meet the condition keeps.
-/
namespace Execution

section Raising

variable {ε α β : Type}

theorem ok_bind (a : α) (f : α → Except ε β) : (Except.ok a >>= f) = f a := rfl

theorem bind_eq_ok {x : Except ε α} {f : α → Except ε β} {b : β}
    (h : (x >>= f) = .ok b) : ∃ a, x = .ok a ∧ f a = .ok b := by
  cases x with
  | error e => cases h
  | ok a => exact ⟨a, rfl, h⟩

theorem bind_ok {x : Except ε α} {f : α → Except ε β} {a : α} {b : β} (hx : x = .ok a)
    (hf : f a = .ok b) : (x >>= f) = .ok b := by
  rw [hx]
  exact hf

theorem eq_ok_of_toOption {x : Except ε α} {a : α} (h : x.toOption = some a) : x = .ok a := by
  cases x with
  | error e => cases h
  | ok b => rw [Option.some.inj h]

/-- A guarded raise that was passed. -/
theorem guard_eq_ok {p : Prop} [Decidable p] {e : ε} {x : Except ε β} {b : β}
    (h : (if p then throw e else x) = .ok b) : ¬ p ∧ x = .ok b := by
  by_cases hp : p
  · rw [if_pos hp] at h
    cases h
  · rw [if_neg hp] at h
    exact ⟨hp, h⟩

theorem exists_of_mem_mapM {f : α → Except ε β} {items : List α} {results : List β}
    (h : items.mapM f = .ok results) {b : β} (hb : b ∈ results) : ∃ a ∈ items, f a = .ok b := by
  induction items generalizing results with
  | nil =>
    cases h
    cases hb
  | cons a rest ih =>
    rw [List.mapM_cons] at h
    obtain ⟨first, hfirst, h⟩ := bind_eq_ok h
    obtain ⟨others, hothers, h⟩ := bind_eq_ok h
    cases h
    rcases List.mem_cons.mp hb with rfl | hb
    · exact ⟨a, by simp, hfirst⟩
    · obtain ⟨a', ha', hresult⟩ := ih hothers hb
      exact ⟨a', List.mem_cons_of_mem _ ha', hresult⟩

theorem exists_of_mem_mapM_left {f : α → Except ε β} {items : List α} {results : List β}
    (h : items.mapM f = .ok results) {a : α} (ha : a ∈ items) : ∃ b ∈ results, f a = .ok b := by
  induction items generalizing results with
  | nil => cases ha
  | cons first rest ih =>
    rw [List.mapM_cons] at h
    obtain ⟨result, hresult, h⟩ := bind_eq_ok h
    obtain ⟨others, hothers, h⟩ := bind_eq_ok h
    obtain rfl := Except.ok.inj h
    rcases List.mem_cons.mp ha with rfl | ha
    · exact ⟨result, List.mem_cons_self, hresult⟩
    · obtain ⟨b, hb, hf⟩ := ih hothers ha
      exact ⟨b, List.mem_cons_of_mem result hb, hf⟩

/-- What each result has of its item, all of them have of all items. -/
theorem map_of_mapM {γ : Type} {f : α → Except ε β} {g : β → γ} {h : α → γ}
    (hf : ∀ a b, f a = .ok b → g b = h a) {items : List α} {results : List β}
    (hresults : items.mapM f = .ok results) : results.map g = items.map h := by
  induction items generalizing results with
  | nil =>
    obtain rfl := Except.ok.inj hresults
    rfl
  | cons a rest ih =>
    rw [List.mapM_cons] at hresults
    obtain ⟨first, hfirst, hresults⟩ := bind_eq_ok hresults
    obtain ⟨others, hothers, hresults⟩ := bind_eq_ok hresults
    obtain rfl := Except.ok.inj hresults
    rw [List.map_cons, List.map_cons, ih hothers, hf a first hfirst]

theorem mapM_ok {f : α → Except ε β} {items : List α} (hf : ∀ a ∈ items, ∃ b, f a = .ok b) :
    ∃ results, items.mapM f = .ok results := by
  induction items with
  | nil => exact ⟨[], rfl⟩
  | cons a rest ih =>
    obtain ⟨first, hfirst⟩ := hf a List.mem_cons_self
    obtain ⟨others, hothers⟩ := ih fun b hb => hf b (List.mem_cons_of_mem a hb)
    refine ⟨first :: others, ?_⟩
    rw [List.mapM_cons, hfirst, hothers]
    rfl

theorem forM_eq_ok {check : α → Except ε Unit} {items : List α} :
    items.forM check = .ok () ↔ ∀ item ∈ items, check item = .ok () := by
  induction items with
  | nil => simp [pure, Except.pure]
  | cons item rest ih =>
    show (check item >>= fun _ => rest.forM check) = .ok () ↔ _
    rw [List.forall_mem_cons, ← ih]
    constructor
    · intro h
      obtain ⟨_, hitem, hrest⟩ := bind_eq_ok h
      exact ⟨hitem, hrest⟩
    · intro h
      exact bind_ok h.1 h.2

end Raising

section RaisingRuns

variable {ε S E : Type} (step : S → E → Except ε S)

/-- Every event that a raising run takes meets a condition on the state it finds. -/
def Throughout (cond : S → E → Prop) : S → List E → Prop
  | _, [] => True
  | s, event :: rest => cond s event ∧ ∀ next, step s event = .ok next → Throughout cond next rest

variable {step}

/-- What every event keeps, with the events still to come in view, a run keeps to its end. -/
theorem foldlM_invariant {P : List E → S → Prop}
    (keep : ∀ event rest s next, P (event :: rest) s → step s event = .ok next → P rest next)
    {s after : S} {events : List E} (h0 : P events s) (h : events.foldlM step s = .ok after) :
    P [] after := by
  induction events generalizing s with
  | nil =>
    cases h
    exact h0
  | cons event rest ih =>
    rw [List.foldlM_cons] at h
    obtain ⟨next, hnext, hrest⟩ := bind_eq_ok h
    exact ih (keep event rest s next h0 hnext) hrest

end RaisingRuns

section Runs

variable {S E : Type} (step : S → E → S)

/-- The state after a sequence of events. -/
def run (s : S) (events : List E) : S := events.foldl step s

/-- Every event of the sequence meets a condition on the state it finds. -/
def Meets (cond : S → E → Prop) : S → List E → Prop
  | _, [] => True
  | s, event :: rest => cond s event ∧ Meets cond (step s event) rest

instance Meets.decidable (cond : S → E → Prop) [∀ s event, Decidable (cond s event)] :
    (s : S) → (events : List E) → Decidable (Meets step cond s events)
  | _, [] => isTrue trivial
  | s, event :: rest =>
    have := Meets.decidable cond (step s event) rest
    inferInstanceAs (Decidable (cond s event ∧ Meets step cond (step s event) rest))

variable {step} {cond : S → E → Prop} {P : S → Prop} {le : S → S → Prop}

@[simp] theorem run_nil (s : S) : run step s [] = s := rfl
@[simp] theorem run_cons (s : S) (event : E) (rest : List E) :
    run step s (event :: rest) = run step (step s event) rest := rfl

theorem run_append (s : S) (xs ys : List E) :
    run step s (xs ++ ys) = run step (run step s xs) ys := List.foldl_append

theorem meets_append {s : S} {xs ys : List E} :
    Meets step cond s (xs ++ ys) ↔ Meets step cond s xs ∧ Meets step cond (run step s xs) ys := by
  induction xs generalizing s with
  | nil => simp [Meets]
  | cons event rest ih => simp [Meets, ih, and_assoc]

/-- What every event that meets the condition keeps, a run of such events keeps. -/
theorem run_invariant (keep : ∀ s event, P s → cond s event → P (step s event)) {s : S}
    {events : List E} (h0 : P s) (hmeets : Meets step cond s events) :
    P (run step s events) := by
  induction events generalizing s with
  | nil => exact h0
  | cons event rest ih => exact ih (keep s event h0 hmeets.1) hmeets.2

end Runs

section Lockstep

variable {S A E O O' : Type} (concrete : S → E → O × S) (abstract : A → E → O' × A)
  (skipped : S → E → O → Prop) (same : S → E → O → O' → Prop)

/-- Two systems take one sequence of events: each event gets the same answer from both, judged
in the state the first is left in, or is skipped by the first, which it leaves as it was, and
never reaches the second. -/
def Lockstep : S → A → List E → Prop
  | _, _, [] => True
  | s, a, event :: rest =>
    (skipped s event (concrete s event).1 ∧ (concrete s event).2 = s ∧ Lockstep s a rest) ∨
      (same (concrete s event).2 event (concrete s event).1 (abstract a event).1 ∧
        Lockstep (concrete s event).2 (abstract a event).2 rest)

variable {concrete abstract skipped same} {R : List E → S → A → Prop}

/-- A relation that every event keeps, with the events still to come in view, keeps two systems
in lockstep. -/
theorem lockstep_of_simulation
    (keep : ∀ s a event rest, R (event :: rest) s a →
      (skipped s event (concrete s event).1 ∧ (concrete s event).2 = s ∧ R rest s a) ∨
        (same (concrete s event).2 event (concrete s event).1 (abstract a event).1 ∧
          R rest (concrete s event).2 (abstract a event).2))
    {s : S} {a : A} {events : List E} (hstart : R events s a) :
    Lockstep concrete abstract skipped same s a events := by
  induction events generalizing s a with
  | nil => trivial
  | cons event rest ih =>
    rcases keep s a event rest hstart with ⟨hskip, hkept, hR⟩ | ⟨hsame, hR⟩
    · exact .inl ⟨hskip, hkept, ih hR⟩
    · exact .inr ⟨hsame, ih hR⟩

end Lockstep

end Execution
