import Mathlib.Logic.Function.Basic
import Mathlib.Tactic.Common

/-!
# Programs of atomic operations under interleaving and crashes

A program is a finite tree of atomic operations on one shared state. A pool runs
any number of calls at once: at each step one worker performs its next operation,
a new call is issued, a finished worker reports its outcome, or a worker crashes
and is forgotten between two of its operations. `Safe` is the proof rule: each
operation re-establishes the shared invariant and moves the state up a preorder,
and whatever a worker has learnt is stated so that it survives every such move.
-/
namespace Interleaving

/-- A program returns, raises, or performs one operation and continues with its reply. -/
inductive Prog (Op : Type) (Res : Op → Type) (ε α : Type) : Type where
  | ret (a : α)
  | raise (e : ε)
  | call (o : Op) (next : Res o → Prog Op Res ε α)

namespace Prog

variable {Op : Type} {Res : Op → Type} {ε α β γ : Type}

def bind : Prog Op Res ε α → (α → Prog Op Res ε β) → Prog Op Res ε β
  | ret a, f => f a
  | raise e, _ => raise e
  | call o next, f => call o (fun r => (next r).bind f)

/-- Handlers see an error raised anywhere in the protected program, after the
operations it already performed. -/
def tryCatch : Prog Op Res ε α → (ε → Prog Op Res ε α) → Prog Op Res ε α
  | ret a, _ => ret a
  | raise e, h => h e
  | call o next, h => call o (fun r => (next r).tryCatch h)

def perform (o : Op) : Prog Op Res ε (Res o) := call o ret

/-- A program over some operations of a larger system. -/
def embed {Op' : Type} {Res' : Op' → Type} {ε' : Type} (f : Op → Op')
    (answer : (o : Op) → Res' (f o) → Res o) (error : ε → ε') :
    Prog Op Res ε α → Prog Op' Res' ε' α
  | ret a => ret a
  | raise e => raise (error e)
  | call o next => call (f o) (fun r => (next (answer o r)).embed f answer error)

instance : Monad (Prog Op Res ε) where
  pure := ret
  bind := bind

instance : MonadExceptOf ε (Prog Op Res ε) where
  throw := raise
  tryCatch := tryCatch

@[simp] theorem ret_bind (a : α) (f : α → Prog Op Res ε β) : (ret a >>= f) = f a := rfl
@[simp] theorem raise_bind (e : ε) (f : α → Prog Op Res ε β) :
    (raise e >>= f) = raise e := rfl
@[simp] theorem call_bind (o : Op) (next : Res o → Prog Op Res ε α)
    (f : α → Prog Op Res ε β) : (call o next >>= f) = call o (fun r => next r >>= f) := rfl

/-- The program run alone, each operation answered by a function; nothing if one must wait. -/
def eval {S : Type} (exec : (o : Op) → S → Option (Res o × S)) :
    Prog Op Res ε α → S → Option (Except ε α × S)
  | ret a, s => some (.ok a, s)
  | raise e, s => some (.error e, s)
  | call o next, s =>
    match exec o s with
    | none => none
    | some (r, t) => (next r).eval exec t

/-- The program run alone, no operation of which has to wait. -/
def run {S : Type} (exec : (o : Op) → S → Res o × S) : Prog Op Res ε α → S → Except ε α × S
  | ret a, s => (.ok a, s)
  | raise e, s => (.error e, s)
  | call o next, s => (next (exec o s).1).run exec (exec o s).2

/-- How a finished program ended. -/
def outcome : Prog Op Res ε α → Option (Except ε α)
  | ret a => some (.ok a)
  | raise e => some (.error e)
  | call _ _ => none

/-- Whatever the replies, the program raises no error of a kind. -/
def Avoids (bad : ε → Prop) : Prog Op Res ε α → Prop
  | ret _ => True
  | raise e => ¬ bad e
  | call _ next => ∀ r, (next r).Avoids bad

theorem Avoids.bind {bad : ε → Prop} {p : Prog Op Res ε α} {f : α → Prog Op Res ε β}
    (hp : p.Avoids bad) (hf : ∀ a, (f a).Avoids bad) : (p >>= f).Avoids bad := by
  induction p with
  | ret a => exact hf a
  | raise e => exact hp
  | call o next ih => exact fun r => ih r (hp r)

theorem Avoids.tryCatch {bad : ε → Prop} {p : Prog Op Res ε α} {h : ε → Prog Op Res ε α}
    (hp : p.Avoids bad) (hh : ∀ e, ¬ bad e → (h e).Avoids bad) : (p.tryCatch h).Avoids bad := by
  induction p with
  | ret a => trivial
  | raise e => exact hh e hp
  | call o next ih => exact fun r => ih r (hp r)

end Prog

/-- The shared state: which replies an operation may get, and the state it leaves. -/
structure Machine (Op : Type) (Res : Op → Type) (S : Type) where
  step : (o : Op) → S → Res o → S → Prop

namespace Machine

variable {Op : Type} {Res : Op → Type} {S : Type}

/-- The same machine, with only the steps that meet a condition on the state before them. -/
def restrict (m : Machine Op Res S) (cond : Op → S → Prop) : Machine Op Res S where
  step o s r s' := cond o s ∧ m.step o s r s'

/-- Services that depend on what their environment decides: a call is served, or fails with its
effect applied or not. -/
def faulty {Env : Type} (serve : Env → (o : Op) → S → Res o × S)
    (failed : (o : Op) → Res o → Prop) : Machine Op Res S where
  step o s r s' :=
    (∃ env, serve env o s = (r, s')) ∨ (failed o r ∧ (s' = s ∨ ∃ env, s' = (serve env o s).2))

end Machine

section Pool

variable {Op : Type} {Res : Op → Type} {ε α C S : Type}

/-- The shared state and the program each live worker still has to run. -/
structure Config (Op : Type) (Res : Op → Type) (ε α C S : Type) where
  state : S
  pool : ℕ → Option (C × Prog Op Res ε α)

inductive Event (Op : Type) (Res : Op → Type) (ε α C : Type) where
  | issued (i : ℕ) (c : C)
  | performed (i : ℕ) (c : C) (o : Op) (r : Res o)
  | finished (i : ℕ) (c : C) (out : Except ε α)
  | crashed (i : ℕ)

/-- No call has been issued yet. -/
def Config.start (s : S) : Config Op Res ε α C S := ⟨s, fun _ => none⟩

/-- One step of the pool. A worker's operations are atomic; everything between two
of them may be interleaved with any other worker's. -/
inductive Step (m : Machine Op Res S) (body : C → Prog Op Res ε α) :
    Config Op Res ε α C S → Event Op Res ε α C → Config Op Res ε α C S → Prop
  | issue (cfg) (i : ℕ) (c : C) (free : cfg.pool i = none) :
      Step m body cfg (.issued i c)
        ⟨cfg.state, Function.update cfg.pool i (some (c, body c))⟩
  | perform (cfg) (i : ℕ) (c : C) (o : Op) (next : Res o → Prog Op Res ε α) (r : Res o)
      (s' : S) (live : cfg.pool i = some (c, .call o next)) (done : m.step o cfg.state r s') :
      Step m body cfg (.performed i c o r)
        ⟨s', Function.update cfg.pool i (some (c, next r))⟩
  | finish (cfg) (i : ℕ) (c : C) (p : Prog Op Res ε α) (out : Except ε α)
      (live : cfg.pool i = some (c, p)) (ended : p.outcome = some out) :
      Step m body cfg (.finished i c out) ⟨cfg.state, Function.update cfg.pool i none⟩
  | crash (cfg) (i : ℕ) :
      Step m body cfg (.crashed i) ⟨cfg.state, Function.update cfg.pool i none⟩

/-- A run: any finite sequence of pool steps, each of which the guard admits. -/
inductive Run (m : Machine Op Res S) (body : C → Prog Op Res ε α)
    (guard : Config Op Res ε α C S → Event Op Res ε α C → Prop)
    (start : Config Op Res ε α C S) :
    List (Event Op Res ε α C) → Config Op Res ε α C S → Prop
  | refl : Run m body guard start [] start
  | snoc {events cfg event cfg'} (before : Run m body guard start events cfg)
      (admitted : guard cfg event) (next : Step m body cfg event cfg') :
      Run m body guard start (events ++ [event]) cfg'

variable {m : Machine Op Res S} {body : C → Prog Op Res ε α}
  {guard guard' : Config Op Res ε α C S → Event Op Res ε α C → Prop}

theorem Run.mono {start cfg} {events : List (Event Op Res ε α C)}
    (run : Run m body guard start events cfg)
    (weaker : ∀ cfg event, guard cfg event → guard' cfg event) :
    Run m body guard' start events cfg := by
  induction run with
  | refl => exact .refl
  | snoc _ admitted next ih => exact .snoc ih (weaker _ _ admitted) next

theorem Run.trans {a b c : Config Op Res ε α C S} {xs ys : List (Event Op Res ε α C)}
    (first : Run m body guard a xs b) (second : Run m body guard b ys c) :
    Run m body guard a (xs ++ ys) c := by
  induction second with
  | refl => simpa using first
  | snoc _ admitted next ih =>
    rw [← List.append_assoc]
    exact .snoc ih admitted next

theorem live_of_update {pool : ℕ → Option (C × Prog Op Res ε α)} {i j : ℕ} {c : C}
    {p : Prog Op Res ε α} {entry : Option (C × Prog Op Res ε α)}
    (h : Function.update pool i entry j = some (c, p)) :
    (j = i ∧ entry = some (c, p)) ∨ (j ≠ i ∧ pool j = some (c, p)) := by
  by_cases hji : j = i
  · subst hji
    exact .inl ⟨rfl, by simpa using h⟩
  · exact .inr ⟨hji, by simpa [Function.update_of_ne hji] using h⟩

variable {cfg cfg' : Config Op Res ε α C S} {event : Event Op Res ε α C}

/-- What a live call has just done: it was issued, it performed its next operation, or nothing. -/
theorem Step.live (next : Step m body cfg event cfg') {i : ℕ} {c : C} {p : Prog Op Res ε α}
    (live : cfg'.pool i = some (c, p)) :
    (event = .issued i c ∧ cfg'.state = cfg.state ∧ cfg.pool i = none ∧ p = body c) ∨
      (∃ o next r, event = .performed i c o r ∧ cfg.pool i = some (c, .call o next) ∧
        m.step o cfg.state r cfg'.state ∧ p = next r) ∨
      cfg.pool i = some (c, p) := by
  cases next with
  | issue j d free =>
    rcases live_of_update live with ⟨rfl, heq⟩ | ⟨-, hold⟩
    · obtain ⟨rfl, rfl⟩ := Prod.mk.inj (Option.some.inj heq)
      exact .inl ⟨rfl, rfl, free, rfl⟩
    · exact .inr (.inr hold)
  | perform j d o next r s' turn done =>
    rcases live_of_update live with ⟨rfl, heq⟩ | ⟨-, hold⟩
    · obtain ⟨rfl, rfl⟩ := Prod.mk.inj (Option.some.inj heq)
      exact .inr (.inl ⟨o, next, r, rfl, turn, done, rfl⟩)
    · exact .inr (.inr hold)
  | finish j d q out turn ended =>
    rcases live_of_update live with ⟨-, heq⟩ | ⟨-, hold⟩
    · cases heq
    · exact .inr (.inr hold)
  | crash j =>
    rcases live_of_update live with ⟨-, heq⟩ | ⟨-, hold⟩
    · cases heq
    · exact .inr (.inr hold)

/-- The state changes by an operation of a live call only. -/
theorem Step.state (next : Step m body cfg event cfg') :
    (∃ i c o next r, event = .performed i c o r ∧ cfg.pool i = some (c, .call o next) ∧
      m.step o cfg.state r cfg'.state) ∨ cfg'.state = cfg.state := by
  cases next with
  | issue i c free => exact .inr rfl
  | perform i c o next r s' live done => exact .inl ⟨i, c, o, next, r, rfl, live, done⟩
  | finish i c p out live ended => exact .inr rfl
  | crash i => exact .inr rfl

end Pool

/-- What workers may rely on and must guarantee: an invariant of the shared state,
and a preorder along which every step moves it. -/
structure Discipline (S : Type) where
  inv : S → Prop
  le : S → S → Prop
  refl : ∀ s, le s s
  trans : ∀ a b c, le a b → le b c → le a c

section Guarantee

variable {Op : Type} {Res : Op → Type} {ε α β S : Type}
variable (m : Machine Op Res S) (D : Discipline S)

/-- Postconditions that later steps of other workers cannot undo. -/
def Stable (Q : α → S → Prop) : Prop := ∀ a s t, D.le s t → Q a s → Q a t

/-- What each step of one program promises: of the operation, the state it finds, the reply,
the state it leaves, and the program that remains. -/
abbrev Promise (Op : Type) (Res : Op → Type) (ε α S : Type) :=
  (o : Op) → S → Res o → S → Prog Op Res ε α → Prop

/-- A safe program each of whose steps also keeps a promise of its own. -/
def Guarded (G : Promise Op Res ε α S) (Q : α → S → Prop) (E : ε → S → Prop) :
    Prog Op Res ε α → S → Prop
  | .ret a, s => Q a s
  | .raise e, s => E e s
  | .call o next, s => ∀ t, D.le s t → D.inv t → ∀ r t', m.step o t r t' →
      D.inv t' ∧ D.le t t' ∧ G o t r t' (next r) ∧ Guarded G Q E (next r) t'

variable {m D}
variable {G : Promise Op Res ε α S} {Q : α → S → Prop} {E E' : ε → S → Prop}

theorem Guarded.mono {p : Prog Op Res ε α} {s t : S} (hp : Guarded m D G Q E p s)
    (hQ : Stable D Q) (hE : Stable D E) (hle : D.le s t) : Guarded m D G Q E p t := by
  cases p with
  | ret a => exact hQ a s t hle hp
  | raise e => exact hE e s t hle hp
  | call o next =>
    intro u hu hinv r u' hstep
    exact hp u (D.trans _ _ _ hle hu) hinv r u' hstep

theorem Guarded.bind {G' : Promise Op Res ε β S} {R : β → S → Prop} {p : Prog Op Res ε α}
    {f : α → Prog Op Res ε β} {s : S} (hp : Guarded m D G Q E p s)
    (hG : ∀ o t r t' q, G o t r t' q → G' o t r t' (q >>= f))
    (hf : ∀ a t, D.le s t → Q a t → Guarded m D G' R E (f a) t) :
    Guarded m D G' R E (p >>= f) s := by
  induction p generalizing s with
  | ret a => exact hf a s (D.refl s) hp
  | raise e => exact hp
  | call o next ih =>
    intro t ht hinv r t' hstep
    obtain ⟨hi, hl, hg, hs⟩ := hp t ht hinv r t' hstep
    exact ⟨hi, hl, hG o t r t' _ hg,
      ih r hs (fun a u hu => hf a u (D.trans _ _ _ (D.trans _ _ _ ht hl) hu))⟩

theorem Guarded.tryCatch {G' : Promise Op Res ε α S} {p : Prog Op Res ε α}
    {h : ε → Prog Op Res ε α} {s : S} (hp : Guarded m D G Q E' p s)
    (hG : ∀ o t r t' q, G o t r t' q → G' o t r t' (q.tryCatch h))
    (hh : ∀ e t, D.le s t → E' e t → Guarded m D G' Q E (h e) t) :
    Guarded m D G' Q E (p.tryCatch h) s := by
  induction p generalizing s with
  | ret a => exact hp
  | raise e => exact hh e s (D.refl s) hp
  | call o next ih =>
    intro t ht hinv r t' hstep
    obtain ⟨hi, hl, hg, hs⟩ := hp t ht hinv r t' hstep
    exact ⟨hi, hl, hG o t r t' _ hg,
      ih r hs (fun e u hu => hh e u (D.trans _ _ _ (D.trans _ _ _ ht hl) hu))⟩

end Guarantee

section Safe

variable {Op : Type} {Res : Op → Type} {ε α β C S : Type}
variable (m : Machine Op Res S) (D : Discipline S)

/-- From state `s` on, whatever other workers do meanwhile, every operation of the
program keeps the invariant and the preorder, and its end satisfies the postcondition. -/
def Safe (Q : α → S → Prop) (E : ε → S → Prop) : Prog Op Res ε α → S → Prop
  | .ret a, s => Q a s
  | .raise e, s => E e s
  | .call o next, s => ∀ t, D.le s t → D.inv t → ∀ r t', m.step o t r t' →
      D.inv t' ∧ D.le t t' ∧ Safe Q E (next r) t'

variable {m D}
variable {Q Q' : α → S → Prop} {E E' : ε → S → Prop}

theorem Guarded.safe {p : Prog Op Res ε α} {s : S} (hp : Guarded m D G Q E p s) :
    Safe m D Q E p s := by
  induction p generalizing s with
  | ret a => exact hp
  | raise e => exact hp
  | call o next ih =>
    intro t ht hinv r t' hstep
    obtain ⟨hi, hl, -, hs⟩ := hp t ht hinv r t' hstep
    exact ⟨hi, hl, ih r hs⟩

/-- Safety without the promises. -/
theorem guarded_iff_safe {p : Prog Op Res ε α} {s : S} :
    Guarded m D (fun _ _ _ _ _ => True) Q E p s ↔ Safe m D Q E p s := by
  refine ⟨Guarded.safe, fun hp => ?_⟩
  induction p generalizing s with
  | ret a => exact hp
  | raise e => exact hp
  | call o next ih =>
    intro t ht hinv r t' hstep
    obtain ⟨hi, hl, hs⟩ := hp t ht hinv r t' hstep
    exact ⟨hi, hl, trivial, ih r hs⟩

theorem Safe.weaken {p : Prog Op Res ε α} {s : S} (hp : Safe m D Q E p s)
    (hQ : ∀ a t, D.le s t → Q a t → Q' a t) (hE : ∀ e t, D.le s t → E e t → E' e t) :
    Safe m D Q' E' p s := by
  induction p generalizing s with
  | ret a => exact hQ a s (D.refl s) hp
  | raise e => exact hE e s (D.refl s) hp
  | call o next ih =>
    intro t ht hinv r t' hstep
    obtain ⟨hi, hl, hs⟩ := hp t ht hinv r t' hstep
    have hst := D.trans _ _ _ ht hl
    exact ⟨hi, hl, ih r hs (fun a u hu => hQ a u (D.trans _ _ _ hst hu))
      (fun e u hu => hE e u (D.trans _ _ _ hst hu))⟩

theorem Safe.bind {p : Prog Op Res ε α} {f : α → Prog Op Res ε β} {s : S}
    {R : β → S → Prop} (hp : Safe m D Q E p s)
    (hf : ∀ a t, D.le s t → Q a t → Safe m D R E (f a) t) :
    Safe m D R E (p >>= f) s := by
  apply guarded_iff_safe.mp
  apply (guarded_iff_safe.mpr hp).bind (fun _ _ _ _ _ _ => trivial)
  intro a t hle ha
  exact guarded_iff_safe.mpr (hf a t hle ha)

theorem Safe.tryCatch {p : Prog Op Res ε α} {h : ε → Prog Op Res ε α} {s : S}
    (hp : Safe m D Q E' p s)
    (hh : ∀ e t, D.le s t → E' e t → Safe m D Q E (h e) t) :
    Safe m D Q E (p.tryCatch h) s := by
  apply guarded_iff_safe.mp
  apply (guarded_iff_safe.mpr hp).tryCatch (fun _ _ _ _ _ _ => trivial)
  intro e t hle he
  exact guarded_iff_safe.mpr (hh e t hle he)

/-- An operation that only reads keeps every discipline. -/
theorem Safe.read {o : Op} {next : Res o → Prog Op Res ε α} {s : S}
    (hread : ∀ t r t', m.step o t r t' → t' = t)
    (hnext : ∀ t, D.le s t → D.inv t → ∀ r, m.step o t r t → Safe m D Q E (next r) t) :
    Safe m D Q E (.call o next) s := by
  intro t ht hinv r t' hstep
  obtain rfl := hread t r t' hstep
  exact ⟨hinv, D.refl _, hnext _ ht hinv r hstep⟩

/-- One call of services that may fail: that its effect keeps the discipline, and how the
program goes on. -/
theorem Safe.request {Env : Type} {serve : Env → (o : Op) → S → Res o × S}
    {failed : (o : Op) → Res o → Prop} {cond : Op → S → Prop} {o : Op}
    {next : Res o → Prog Op Res ε α} {s : S}
    (hstep : ∀ t env, D.le s t → D.inv t → cond o t →
      D.inv (serve env o t).2 ∧ D.le t (serve env o t).2)
    (hfailed : ∀ r t, D.le s t → D.inv t → failed o r →
      Safe ((Machine.faulty serve failed).restrict cond) D Q E (next r) t)
    (hserved : ∀ t env, D.le s t → D.inv t → cond o t → D.inv (serve env o t).2 →
      D.le t (serve env o t).2 → Safe ((Machine.faulty serve failed).restrict cond) D Q E
        (next (serve env o t).1) (serve env o t).2) :
    Safe ((Machine.faulty serve failed).restrict cond) D Q E (.call o next) s := by
  intro t ht hinv r t' hdone
  obtain ⟨hcond, hdone⟩ := hdone
  rcases hdone with ⟨env, heq⟩ | ⟨hfail, rfl | ⟨env, rfl⟩⟩
  · obtain ⟨hinv', hle'⟩ := hstep t env ht hinv hcond
    have hnext := hserved t env ht hinv hcond hinv' hle'
    rw [heq] at hinv' hle' hnext
    exact ⟨hinv', hle', hnext⟩
  · exact ⟨hinv, D.refl _, hfailed r _ ht hinv hfail⟩
  · obtain ⟨hinv', hle'⟩ := hstep t env ht hinv hcond
    exact ⟨hinv', hle', hfailed r _ (D.trans _ _ _ ht hle') hinv' hfail⟩

/-- Where every operation keeps the discipline in every state, every program is safe. -/
theorem Safe.of_steps
    (hstep : ∀ o t r t', D.inv t → m.step o t r t' → D.inv t' ∧ D.le t t')
    (p : Prog Op Res ε α) (s : S) : Safe m D (fun _ _ => True) (fun _ _ => True) p s := by
  induction p generalizing s with
  | ret a => exact trivial
  | raise e => exact trivial
  | call o next ih =>
    intro t ht hinv r t' hdone
    obtain ⟨hi, hl⟩ := hstep o t r t' hinv hdone
    exact ⟨hi, hl, ih r t'⟩

section Embedding

variable {Op' : Type} {Res' : Op' → Type} {ε' S' : Type}

/-- A safe program stays safe as a part of a larger system, if the system's steps act as the
component's steps on the component's state and otherwise keep the larger discipline. -/
theorem Safe.embed {m' : Machine Op' Res' S'} {D' : Discipline S'} {part : S' → S}
    {f : Op → Op'} {answer : (o : Op) → Res' (f o) → Res o} {error : ε → ε'}
    (hle : ∀ s t, D'.le s t → D.le (part s) (part t))
    (hinv : ∀ s, D'.inv s → D.inv (part s))
    (hstep : ∀ o s r s', m'.step (f o) s r s' →
      m.step o (part s) (answer o r) (part s') ∧
        (D'.inv s → D.inv (part s') → D.le (part s) (part s') → D'.inv s' ∧ D'.le s s'))
    {p : Prog Op Res ε α} {s : S'} (hp : Safe m D Q E p (part s)) :
    Safe m' D' (fun a t => Q a (part t)) (fun e t => ∃ e', e = error e' ∧ E e' (part t))
      (p.embed f answer error) s := by
  induction p generalizing s with
  | ret a => exact hp
  | raise e => exact ⟨e, rfl, hp⟩
  | call o next ih =>
    intro t ht htinv r t' hdone
    obtain ⟨hpart, hrest⟩ := hstep o t r t' hdone
    obtain ⟨hi, hl, hs⟩ := hp (part t) (hle s t ht) (hinv t htinv) _ _ hpart
    obtain ⟨hi', hl'⟩ := hrest htinv hi hl
    exact ⟨hi', hl', ih _ hs⟩

end Embedding

end Safe

section Alone

variable {Op : Type} {Res : Op → Type} {ε α S : Type}
variable {m : Machine Op Res S} {D : Discipline S} {Q : α → S → Prop} {E : ε → S → Prop}

/-- One program run alone: to its end, or cut short between two operations. -/
inductive Alone (m : Machine Op Res S) :
    Prog Op Res ε α → S → Option (Except ε α) → S → Prop
  | ended {p : Prog Op Res ε α} {out : Except ε α} (s : S) (done : p.outcome = some out) :
      Alone m p s (some out) s
  | cut (p : Prog Op Res ε α) (s : S) : Alone m p s none s
  | perform {o : Op} {next : Res o → Prog Op Res ε α} {r : Res o} {s t u : S}
      {out : Option (Except ε α)} (done : m.step o s r t) (rest : Alone m (next r) t out u) :
      Alone m (.call o next) s out u

/-- A safe program run alone keeps the invariant wherever it is cut, and ends as promised. -/
theorem Safe.alone {p : Prog Op Res ε α} {s t : S} {out : Option (Except ε α)}
    (run : Alone m p s out t) (hp : Safe m D Q E p s) (hinv : D.inv s) :
    D.inv t ∧ D.le s t ∧ (∀ a, out = some (.ok a) → Q a t) := by
  induction run with
  | @ended p out s done =>
    refine ⟨hinv, D.refl s, ?_⟩
    rintro a ⟨⟩
    cases p with
    | ret b =>
      obtain rfl : b = a := by simpa [Prog.outcome] using done
      exact hp
    | raise e => simp [Prog.outcome] at done
    | call o next => simp [Prog.outcome] at done
  | cut p s => exact ⟨hinv, D.refl s, by rintro a ⟨⟩⟩
  | @perform o next r s t u out done rest ih =>
    obtain ⟨hi, hl, hs⟩ := hp s (D.refl s) hinv r t done
    obtain ⟨hiu, hlu, hq⟩ := ih hs hi
    exact ⟨hiu, D.trans _ _ _ hl hlu, hq⟩

end Alone

section Evaluation

variable {Op : Type} {Res : Op → Type} {ε α β S : Type}

/-- Run alone, the program ends with the given outcome, in a state of the given kind. -/
def Evaluates (exec : (o : Op) → S → Option (Res o × S)) (p : Prog Op Res ε α) (s : S)
    (out : Except ε α) (Q : S → Prop) : Prop :=
  ∃ t, p.eval exec s = some (out, t) ∧ Q t

variable {exec : (o : Op) → S → Option (Res o × S)} {Q R : S → Prop} {s : S}

theorem Prog.eval_bind (p : Prog Op Res ε α) (f : α → Prog Op Res ε β) (s : S) :
    (p >>= f).eval exec s = (p.eval exec s).bind fun result =>
      match result.1 with
      | .ok a => (f a).eval exec result.2
      | .error e => some (.error e, result.2) := by
  induction p generalizing s with
  | ret a => rfl
  | raise e => rfl
  | call o next ih =>
    simp only [Prog.call_bind, Prog.eval]
    cases exec o s with
    | none => rfl
    | some served => exact ih served.1 served.2

theorem Prog.eval_tryCatch (p : Prog Op Res ε α) (h : ε → Prog Op Res ε α) (s : S) :
    (p.tryCatch h).eval exec s = (p.eval exec s).bind fun result =>
      match result.1 with
      | .ok a => some (.ok a, result.2)
      | .error e => (h e).eval exec result.2 := by
  induction p generalizing s with
  | ret a => rfl
  | raise e => rfl
  | call o next ih =>
    simp only [Prog.tryCatch, Prog.eval]
    cases exec o s with
    | none => rfl
    | some served => exact ih served.1 served.2

theorem Evaluates.bind {p : Prog Op Res ε α} {f : α → Prog Op Res ε β} {a : α}
    {out : Except ε β} (hp : Evaluates exec p s (.ok a) Q)
    (hf : ∀ t, Q t → Evaluates exec (f a) t out R) : Evaluates exec (p >>= f) s out R := by
  obtain ⟨t, heval, ht⟩ := hp
  obtain ⟨u, heval', hu⟩ := hf t ht
  exact ⟨u, by rw [Prog.eval_bind, heval]; exact heval', hu⟩

theorem Evaluates.bind_error {p : Prog Op Res ε α} {f : α → Prog Op Res ε β} {e : ε}
    (hp : Evaluates exec p s (.error e) Q) :
    Evaluates exec (p >>= f) s (.error e) Q := by
  obtain ⟨t, heval, ht⟩ := hp
  exact ⟨t, by rw [Prog.eval_bind, heval]; rfl, ht⟩

theorem Evaluates.tryCatch {p : Prog Op Res ε α} {h : ε → Prog Op Res ε α} {a : α}
    (hp : Evaluates exec p s (.ok a) Q) : Evaluates exec (p.tryCatch h) s (.ok a) Q := by
  obtain ⟨t, heval, ht⟩ := hp
  exact ⟨t, by rw [Prog.eval_tryCatch, heval]; rfl, ht⟩

theorem Evaluates.tryCatch_error {p : Prog Op Res ε α} {h : ε → Prog Op Res ε α} {e : ε}
    {out : Except ε α} (hp : Evaluates exec p s (.error e) Q)
    (hh : ∀ t, Q t → Evaluates exec (h e) t out R) : Evaluates exec (p.tryCatch h) s out R := by
  obtain ⟨t, heval, ht⟩ := hp
  obtain ⟨u, heval', hu⟩ := hh t ht
  exact ⟨u, by rw [Prog.eval_tryCatch, heval]; exact heval', hu⟩

/-- Run alone, the program returns, and its result and the state it leaves are as promised. -/
def Yields (exec : (o : Op) → S → Option (Res o × S)) (p : Prog Op Res ε α) (s : S)
    (Q : α → S → Prop) : Prop :=
  ∃ a t, p.eval exec s = some (.ok a, t) ∧ Q a t

theorem Yields.ret {a : α} {Q : α → S → Prop} (h : Q a s) :
    Yields exec (.ret a : Prog Op Res ε α) s Q := ⟨a, s, rfl, h⟩

theorem Yields.call {o : Op} {next : Res o → Prog Op Res ε α} {r : Res o} {t : S}
    {Q : α → S → Prop} (hexec : exec o s = some (r, t)) (h : Yields exec (next r) t Q) :
    Yields exec (.call o next) s Q := by
  obtain ⟨a, u, heval, hu⟩ := h
  exact ⟨a, u, by simp only [Prog.eval, hexec]; exact heval, hu⟩

theorem Yields.bind {p : Prog Op Res ε α} {f : α → Prog Op Res ε β} {Q : α → S → Prop}
    {R : β → S → Prop} (hp : Yields exec p s Q)
    (hf : ∀ a t, Q a t → Yields exec (f a) t R) : Yields exec (p >>= f) s R := by
  obtain ⟨a, t, heval, ht⟩ := hp
  obtain ⟨b, u, heval', hu⟩ := hf a t ht
  exact ⟨b, u, by rw [Prog.eval_bind, heval]; exact heval', hu⟩

end Evaluation

section Promises

variable {Op : Type} {Res : Op → Type} {ε α C S : Type}
variable {m m' : Machine Op Res S} {D : Discipline S}
variable {G : Promise Op Res ε α S} {Q : α → S → Prop} {E : ε → S → Prop}
variable {body : C → Prog Op Res ε α} {guard : Config Op Res ε α C S → Event Op Res ε α C → Prop}
variable {Gs : C → Promise Op Res ε α S} {Qs : C → α → S → Prop} {Es : C → ε → S → Prop}

/-- Every live worker keeps its promises from the current state on. -/
def PoolGuarded (m : Machine Op Res S) (D : Discipline S) (Gs : C → Promise Op Res ε α S)
    (Qs : C → α → S → Prop) (Es : C → ε → S → Prop) (cfg : Config Op Res ε α C S) : Prop :=
  D.inv cfg.state ∧
    ∀ i c p, cfg.pool i = some (c, p) → Guarded m D (Gs c) (Qs c) (Es c) p cfg.state

theorem PoolGuarded.start {s : S} (h : D.inv s) :
    PoolGuarded m D Gs Qs Es (Config.start s : Config Op Res ε α C S) :=
  ⟨h, by simp [Config.start]⟩

/-- One step of any worker keeps the invariant, and the promises of every other worker. -/
theorem PoolGuarded.step {cfg cfg' : Config Op Res ε α C S} {event : Event Op Res ε α C}
    (hQ : ∀ c, Stable D (Qs c)) (hE : ∀ c, Stable D (Es c))
    (hbody : ∀ i c, event = .issued i c → D.inv cfg.state →
      Guarded m D (Gs c) (Qs c) (Es c) (body c) cfg.state)
    (safe : PoolGuarded m D Gs Qs Es cfg) (next : Step m body cfg event cfg') :
    PoolGuarded m D Gs Qs Es cfg' ∧ D.le cfg.state cfg'.state := by
  obtain ⟨hinv, hpool⟩ := safe
  have hmoved : D.inv cfg'.state ∧ D.le cfg.state cfg'.state := by
    rcases next.state with ⟨i, c, o, rest, r, -, live, done⟩ | hsame
    · obtain ⟨hi, hl, -⟩ := hpool i c _ live _ (D.refl _) hinv r _ done
      exact ⟨hi, hl⟩
    · rw [hsame]
      exact ⟨hinv, D.refl _⟩
  refine ⟨⟨hmoved.1, ?_⟩, hmoved.2⟩
  intro i c p hlive
  rcases next.live hlive with ⟨rfl, hsame, -, rfl⟩ | ⟨o, rest, r, -, live, done, rfl⟩ | hold
  · rw [hsame]
    exact hbody i c rfl hinv
  · exact (hpool i c _ live _ (D.refl _) hinv r _ done).2.2.2
  · exact (hpool i c p hold).mono (hQ c) (hE c) hmoved.2

theorem Run.poolGuarded {start cfg : Config Op Res ε α C S}
    {events : List (Event Op Res ε α C)} (run : Run m body guard start events cfg)
    (hQ : ∀ c, Stable D (Qs c)) (hE : ∀ c, Stable D (Es c))
    (hbody : ∀ cfg i c, guard cfg (.issued i c) → D.inv cfg.state →
      Guarded m D (Gs c) (Qs c) (Es c) (body c) cfg.state)
    (h0 : PoolGuarded m D Gs Qs Es start) : PoolGuarded m D Gs Qs Es cfg := by
  induction run with
  | refl => exact h0
  | snoc _ admitted next ih =>
    exact (ih.step hQ hE (fun i c he hinv => hbody _ i c (he ▸ admitted) hinv) next).1

/-- Every step a call performs keeps the call's promise. -/
theorem PoolGuarded.performed {cfg cfg' : Config Op Res ε α C S} {i : ℕ} {c : C} {o : Op}
    {r : Res o} (safe : PoolGuarded m D Gs Qs Es cfg)
    (next : Step m body cfg (.performed i c o r) cfg') :
    ∃ p, cfg'.pool i = some (c, p) ∧ Gs c o cfg.state r cfg'.state p := by
  cases next with
  | perform _ _ _ next _ s' live done =>
    obtain ⟨-, -, hg, -⟩ := safe.2 i c _ live _ (D.refl _) safe.1 r s' done
    exact ⟨next r, by simp, hg⟩

/-- How a guarded call ends. -/
theorem Guarded.finished {cfg cfg' : Config Op Res ε α C S} {i : ℕ} {c d : C}
    {p : Prog Op Res ε α} {out : Except ε α} (hp : Guarded m' D G Q E p cfg.state)
    (live : cfg.pool i = some (c, p)) (next : Step m body cfg (.finished i d out) cfg') :
    (∀ a, out = .ok a → Q a cfg.state) ∧ ∀ e, out = .error e → E e cfg.state := by
  cases next with
  | finish _ _ q _ live' ended =>
    rw [live, Option.some.injEq, Prod.mk.injEq] at live'
    obtain ⟨rfl, rfl⟩ := live'
    cases p with
    | ret a =>
      obtain rfl : Except.ok a = out := by simpa [Prog.outcome] using ended
      exact ⟨by rintro _ ⟨⟩; exact hp, by rintro _ ⟨⟩⟩
    | raise e =>
      obtain rfl : Except.error e = out := by simpa [Prog.outcome] using ended
      exact ⟨by rintro _ ⟨⟩, by rintro _ ⟨⟩; exact hp⟩
    | call o next => simp [Prog.outcome] at ended

end Promises

section Soundness

variable {Op : Type} {Res : Op → Type} {ε α C S : Type}
variable {m : Machine Op Res S} {D : Discipline S} {body : C → Prog Op Res ε α}
variable {guard : Config Op Res ε α C S → Event Op Res ε α C → Prop}
variable {Q : C → α → S → Prop} {E : C → ε → S → Prop}

/-- Every live worker is safe from the current state on. -/
def PoolSafe (m : Machine Op Res S) (D : Discipline S) (Q : C → α → S → Prop)
    (E : C → ε → S → Prop) (cfg : Config Op Res ε α C S) : Prop :=
  D.inv cfg.state ∧ ∀ i c p, cfg.pool i = some (c, p) → Safe m D (Q c) (E c) p cfg.state

theorem poolGuarded_iff_poolSafe {cfg : Config Op Res ε α C S} :
    PoolGuarded m D (fun _ _ _ _ _ _ => True) Q E cfg ↔ PoolSafe m D Q E cfg := by
  simp only [PoolGuarded, PoolSafe, guarded_iff_safe]

theorem PoolSafe.start {s : S} (h : D.inv s) :
    PoolSafe m D Q E (Config.start s : Config Op Res ε α C S) :=
  ⟨h, by simp [Config.start]⟩

/-- One step of any worker keeps the invariant, and keeps every other worker safe. -/
theorem PoolSafe.step {cfg cfg' : Config Op Res ε α C S} {event : Event Op Res ε α C}
    (hQ : ∀ c, Stable D (Q c)) (hE : ∀ c, Stable D (E c))
    (hbody : ∀ i c, event = .issued i c → D.inv cfg.state →
      Safe m D (Q c) (E c) (body c) cfg.state)
    (safe : PoolSafe m D Q E cfg) (next : Step m body cfg event cfg') :
    PoolSafe m D Q E cfg' ∧ D.le cfg.state cfg'.state := by
  rw [← poolGuarded_iff_poolSafe] at safe ⊢
  exact safe.step hQ hE (fun i c he hinv => guarded_iff_safe.mpr (hbody i c he hinv)) next

/-- Soundness: when every call is safe at the moment it is issued, the invariant holds
in every state any interleaving and any crashes can reach. -/
theorem Run.poolSafe {start cfg : Config Op Res ε α C S}
    {events : List (Event Op Res ε α C)} (run : Run m body guard start events cfg)
    (hQ : ∀ c, Stable D (Q c)) (hE : ∀ c, Stable D (E c))
    (hbody : ∀ cfg i c, guard cfg (.issued i c) → D.inv cfg.state →
      Safe m D (Q c) (E c) (body c) cfg.state)
    (h0 : PoolSafe m D Q E start) :
    PoolSafe m D Q E cfg ∧ D.le start.state cfg.state := by
  induction run with
  | refl => exact ⟨h0, D.refl _⟩
  | snoc _ admitted next ih =>
    obtain ⟨hsafe, hle⟩ := ih
    obtain ⟨hsafe', hle'⟩ := hsafe.step hQ hE
      (fun i c he hinv => hbody _ i c (he ▸ admitted) hinv) next
    exact ⟨hsafe', D.trans _ _ _ hle hle'⟩

/-- A call that reports a result does so with its postcondition. -/
theorem PoolSafe.finished {cfg cfg' : Config Op Res ε α C S} {i : ℕ} {c : C}
    {out : Except ε α} (safe : PoolSafe m D Q E cfg)
    (next : Step m body cfg (.finished i c out) cfg') :
    (∀ a, out = .ok a → Q c a cfg.state) ∧ (∀ e, out = .error e → E c e cfg.state) := by
  have hnext := next
  cases next with
  | finish _ _ p _ live ended =>
    exact (guarded_iff_safe.mpr (safe.2 i c p live)).finished live hnext

/-- What a call promised when it reported still holds at the end of the run. -/
theorem Run.finished {start cfg : Config Op Res ε α C S}
    {events : List (Event Op Res ε α C)} (run : Run m body guard start events cfg)
    (hQ : ∀ c, Stable D (Q c)) (hE : ∀ c, Stable D (E c))
    (hbody : ∀ cfg i c, guard cfg (.issued i c) → D.inv cfg.state →
      Safe m D (Q c) (E c) (body c) cfg.state)
    (h0 : PoolSafe m D Q E start) {i : ℕ} {c : C} {out : Except ε α}
    (hmem : Event.finished i c out ∈ events) :
    (∀ a, out = .ok a → Q c a cfg.state) ∧ (∀ e, out = .error e → E c e cfg.state) := by
  induction run with
  | refl => simp at hmem
  | @snoc events cfg event cfg' before admitted next ih =>
    have hsafe := (before.poolSafe hQ hE hbody h0).1
    have hle := (hsafe.step hQ hE
      (fun i c he hinv => hbody _ i c (he ▸ admitted) hinv) next).2
    rw [List.mem_append, List.mem_singleton] at hmem
    have hpost : (∀ a, out = .ok a → Q c a cfg.state) ∧
        (∀ e, out = .error e → E c e cfg.state) := by
      rcases hmem with hearlier | rfl
      · exact ih hearlier
      · exact hsafe.finished next
    constructor
    · intro a ha
      exact hQ c a _ _ hle (hpost.1 a ha)
    · intro e he
      exact hE c e _ _ hle (hpost.2 e he)

section Following

variable {m' : Machine Op Res S} {cond : Op → S → Prop} {i : ℕ} {c : C}
variable {Q' : α → S → Prop} {E' : ε → S → Prop}

/-- One worker neither ends nor crashes, and each of its operations meets a condition. -/
def Follows (i : ℕ) (cond : Op → S → Prop) (cfg : Config Op Res ε α C S) :
    Event Op Res ε α C → Prop
  | .issued .. => True
  | .performed j _ o _ => j = i → cond o cfg.state
  | .finished j _ _ => j ≠ i
  | .crashed j => j ≠ i

/-- A live call stays as it is, or performs its next operation, until it ends or crashes. -/
theorem Step.stays {cfg cfg' : Config Op Res ε α C S} {event : Event Op Res ε α C}
    {p : Prog Op Res ε α} (next : Step m body cfg event cfg') (live : cfg.pool i = some (c, p))
    (hfinished : ∀ d out, event ≠ .finished i d out) (hcrashed : event ≠ .crashed i) :
    (cfg'.pool i = some (c, p) ∧ ∀ d o r, event ≠ .performed i d o r) ∨
      ∃ o rest r, p = .call o rest ∧ event = .performed i c o r ∧
        m.step o cfg.state r cfg'.state ∧ cfg'.pool i = some (c, rest r) := by
  have hkept : ∀ {j} (entry : Option (C × Prog Op Res ε α)), j ≠ i →
      Function.update cfg.pool j entry i = some (c, p) := by
    intro j entry hne
    rw [Function.update_of_ne (Ne.symm hne)]
    exact live
  cases next with
  | issue j d free =>
    have hne : j ≠ i := by
      rintro rfl
      rw [free] at live
      cases live
    exact .inl ⟨hkept _ hne, by simp⟩
  | perform j d o rest r s' turn done =>
    by_cases hne : j = i
    · subst hne
      rw [turn, Option.some.injEq, Prod.mk.injEq] at live
      obtain ⟨rfl, rfl⟩ := live
      exact .inr ⟨o, rest, r, rfl, rfl, done, by simp⟩
    · exact .inl ⟨hkept _ hne, by simp [hne]⟩
  | finish j d q out turn ended =>
    exact .inl ⟨hkept _ (fun hj => hfinished d out (by rw [hj])), by simp⟩
  | crash j => exact .inl ⟨hkept _ (fun hj => hcrashed (by rw [hj])), by simp⟩

/-- A call that is followed through a run performs the operations it promised. -/
theorem Run.follow_guarded {G : Op → Prop} {cfg cfg' : Config Op Res ε α C S}
    {events : List (Event Op Res ε α C)} {p : Prog Op Res ε α}
    (run : Run m body (Follows i cond) cfg events cfg')
    (hm : ∀ o s r s', cond o s → m.step o s r s' → m'.step o s r s')
    (hQ : ∀ c, Stable D (Q c)) (hE : ∀ c, Stable D (E c)) (hQ' : Stable D Q')
    (hE' : Stable D E') (hbody : ∀ s c, D.inv s → Safe m D (Q c) (E c) (body c) s)
    (h0 : PoolSafe m D Q E cfg) (live : cfg.pool i = some (c, p))
    (hp : Guarded m' D (fun o _ _ _ _ => G o) Q' E' p cfg.state) :
    PoolSafe m D Q E cfg' ∧ (∀ d o r, Event.performed i d o r ∈ events → G o) ∧
      ∃ p', cfg'.pool i = some (c, p') ∧
        Guarded m' D (fun o _ _ _ _ => G o) Q' E' p' cfg'.state := by
  induction run with
  | refl => exact ⟨h0, by simp, p, live, hp⟩
  | @snoc events mid event last before admitted next ih =>
    obtain ⟨hsafe, hdone, q, hlive, hq⟩ := ih
    obtain ⟨hsafe', hle⟩ := hsafe.step hQ hE (fun _ c _ hinv => hbody _ c hinv) next
    refine ⟨hsafe', ?_⟩
    rcases next.stays hlive (by rintro d out rfl; exact admitted rfl)
      (by rintro rfl; exact admitted rfl) with ⟨hkept, hother⟩ | ⟨o, rest, r, rfl, rfl, done, hleft⟩
    · refine ⟨?_, q, hkept, hq.mono hQ' hE' hle⟩
      intro d o r hmem
      rcases List.mem_append.mp hmem with hmem | hmem
      · exact hdone d o r hmem
      · exact absurd (List.mem_singleton.mp hmem).symm (hother d o r)
    · have hnow := hm o _ r _ (admitted rfl) done
      obtain ⟨-, -, hG, hrest⟩ := hq _ (D.refl _) hsafe.1 r _ hnow
      refine ⟨?_, rest r, hleft, hrest⟩
      intro d o' r' hmem
      rcases List.mem_append.mp hmem with hmem | hmem
      · exact hdone d o' r' hmem
      · cases List.mem_singleton.mp hmem
        exact hG

/-- A call that is followed through a run keeps to promises of its own. -/
theorem Run.follow {cfg cfg' : Config Op Res ε α C S} {events : List (Event Op Res ε α C)}
    {p : Prog Op Res ε α} (run : Run m body (Follows i cond) cfg events cfg')
    (hm : ∀ o s r s', cond o s → m.step o s r s' → m'.step o s r s')
    (hQ : ∀ c, Stable D (Q c)) (hE : ∀ c, Stable D (E c)) (hQ' : Stable D Q')
    (hE' : Stable D E')
    (hbody : ∀ s c, D.inv s → Safe m D (Q c) (E c) (body c) s)
    (h0 : PoolSafe m D Q E cfg) (live : cfg.pool i = some (c, p))
    (hp : Safe m' D Q' E' p cfg.state) :
    PoolSafe m D Q E cfg' ∧
      ∃ p', cfg'.pool i = some (c, p') ∧ Safe m' D Q' E' p' cfg'.state := by
  obtain ⟨hsafe, -, p', hlive, hp'⟩ := run.follow_guarded (G := fun _ => True) hm hQ hE hQ' hE'
    hbody h0 live (guarded_iff_safe.mpr hp)
  exact ⟨hsafe, p', hlive, hp'.safe⟩

/-- What a followed call reports in the end. -/
theorem Run.follow_finished {cfg cfg' last : Config Op Res ε α C S} {d : C}
    {events : List (Event Op Res ε α C)} {p : Prog Op Res ε α} {out : Except ε α}
    (run : Run m body (Follows i cond) cfg events cfg')
    (hm : ∀ o s r s', cond o s → m.step o s r s' → m'.step o s r s')
    (hQ : ∀ c, Stable D (Q c)) (hE : ∀ c, Stable D (E c)) (hQ' : Stable D Q')
    (hE' : Stable D E')
    (hbody : ∀ s c, D.inv s → Safe m D (Q c) (E c) (body c) s)
    (h0 : PoolSafe m D Q E cfg) (live : cfg.pool i = some (c, p))
    (hp : Safe m' D Q' E' p cfg.state) (next : Step m body cfg' (.finished i d out) last) :
    (∀ a, out = .ok a → Q' a cfg'.state) ∧ (∀ e, out = .error e → E' e cfg'.state) := by
  obtain ⟨-, p', hlive, hp'⟩ := run.follow hm hQ hE hQ' hE' hbody h0 live hp
  exact (guarded_iff_safe.mpr hp').finished hlive next

end Following

end Soundness

section Once

variable {Op : Type} {Res : Op → Type} {ε α C S : Type}
variable {m : Machine Op Res S} {body : C → Prog Op Res ε α}
variable {guard : Config Op Res ε α C S → Event Op Res ε α C → Prop}
variable (label : C → ℕ) (owner : S → Option ℕ)

/-- A call's label is told from those of live calls and from the owner. -/
def Fresh (cfg : Config Op Res ε α C S) (c : C) : Prop :=
  owner cfg.state ≠ some (label c) ∧
    ∀ j d p, cfg.pool j = some (d, p) → label d ≠ label c

/-- Live calls have different labels, and none of them is the owner once it has reported. -/
structure OwnerReported (reported : ℕ) (cfg : Config Op Res ε α C S) : Prop where
  once : reported ≤ 1
  apart : ∀ i j c d p q, cfg.pool i = some (c, p) → cfg.pool j = some (d, q) →
    label c = label d → i = j
  gone : reported = 1 → ∃ l, owner cfg.state = some l ∧
    ∀ i c p, cfg.pool i = some (c, p) → label c ≠ l

variable {label owner}

theorem live_of_update_none {pool : ℕ → Option (C × Prog Op Res ε α)} {i j : ℕ} {c : C}
    {p : Prog Op Res ε α} (h : Function.update pool i none j = some (c, p)) :
    j ≠ i ∧ pool j = some (c, p) := by
  by_cases hji : j = i
  · subst hji
    simp at h
  · rw [Function.update_of_ne hji] at h
    exact ⟨hji, h⟩

/-- A step that does not report for the owner leaves the count as it is. -/
theorem OwnerReported.step {reported : ℕ} {cfg cfg' : Config Op Res ε α C S}
    {event : Event Op Res ε α C} (h : OwnerReported label owner reported cfg)
    (hfresh : ∀ i c, event = .issued i c → Fresh label owner cfg c)
    (hkeep : ∀ l, owner cfg.state = some l → owner cfg'.state = some l)
    (next : Step m body cfg event cfg') : OwnerReported label owner reported cfg' := by
  have hlive : ∀ i c p, cfg'.pool i = some (c, p) →
      event = .issued i c ∨ ∃ q, cfg.pool i = some (c, q) := by
    intro i c p hlive
    rcases next.live hlive with ⟨hissued, -⟩ | ⟨o, rest, r, -, live, -⟩ | hold
    · exact .inl hissued
    · exact .inr ⟨_, live⟩
    · exact .inr ⟨p, hold⟩
  refine ⟨h.once, ?_, ?_⟩
  · intro i j c d p q hi hj hlabel
    rcases hlive i c p hi with rfl | ⟨p', hi'⟩
    · rcases hlive j d q hj with heq | ⟨q', hj'⟩
      · cases heq
        rfl
      · exact ((hfresh i c rfl).2 j d q' hj' hlabel.symm).elim
    · rcases hlive j d q hj with rfl | ⟨q', hj'⟩
      · exact ((hfresh j d rfl).2 i c p' hi' hlabel).elim
      · exact h.apart i j c d p' q' hi' hj' hlabel
  · intro hone
    obtain ⟨l, hl, hother⟩ := h.gone hone
    refine ⟨l, hkeep l hl, ?_⟩
    intro i c p hi heq
    rcases hlive i c p hi with rfl | ⟨q, hq⟩
    · exact (hfresh i c rfl).1 (by rw [hl, heq])
    · exact hother i c q hq heq

/-- The owner reports at most once: it was live until then, and no longer is. -/
theorem OwnerReported.report {reported i : ℕ} {c : C} {out : Except ε α}
    {cfg cfg' : Config Op Res ε α C S} (h : OwnerReported label owner reported cfg)
    (hown : owner cfg.state = some (label c))
    (next : Step m body cfg (.finished i c out) cfg') :
    OwnerReported label owner (reported + 1) cfg' := by
  cases next with
  | finish _ _ p _ live ended =>
    have hzero : reported = 0 := by
      by_contra hne
      have hone : reported = 1 := by
        have := h.once
        omega
      obtain ⟨l, hl, hlive⟩ := h.gone hone
      rw [hown, Option.some.injEq] at hl
      exact hlive i c p live hl
    refine ⟨by omega, ?_, ?_⟩
    · intro j k d e q r hj hk hlabel
      exact h.apart j k d e q r (live_of_update_none hj).2 (live_of_update_none hk).2 hlabel
    · intro _
      refine ⟨label c, hown, ?_⟩
      intro j d q hj heq
      obtain ⟨hji, hj'⟩ := live_of_update_none hj
      exact hji (h.apart j i d c q p hj' live heq)

/-- Whether an event is a report of the given kind. -/
def Event.reports (kind : C → Except ε α → Bool) : Event Op Res ε α C → Bool
  | .finished _ c out => kind c out
  | _ => false

/-- If a kind of report is only made by the owner, and ownership is never taken over, then
it is made at most once in a run. -/
theorem Run.reported_once {kind : C → Except ε α → Bool} {s : S}
    {cfg : Config Op Res ε α C S} {events : List (Event Op Res ε α C)}
    (run : Run m body guard (Config.start s) events cfg)
    (hfresh : ∀ cfg i c, guard cfg (.issued i c) → Fresh label owner cfg c)
    (hkeep : ∀ events cfg event cfg', Run m body guard (Config.start s) events cfg →
      guard cfg event → Step m body cfg event cfg' →
      ∀ l, owner cfg.state = some l → owner cfg'.state = some l)
    (hown : ∀ events cfg i c out cfg', Run m body guard (Config.start s) events cfg →
      Step m body cfg (.finished i c out) cfg' → kind c out = true →
      owner cfg.state = some (label c)) :
    OwnerReported label owner (events.countP (Event.reports kind)) cfg := by
  induction run with
  | refl => exact ⟨by simp, by simp [Config.start], by simp⟩
  | @snoc events cfg event cfg' before admitted next ih =>
    rw [List.countP_append]
    by_cases hkind : event.reports kind = true
    · cases event with
      | finished i c out =>
        have hreport := ih.report (hown _ _ i c out _ before next hkind) next
        simpa [hkind] using hreport
      | issued i c => cases hkind
      | performed i c o r => cases hkind
      | crashed i => cases hkind
    · have hstep := ih.step (fun i c he => hfresh _ i c (he ▸ admitted))
        (hkeep _ _ _ _ before admitted next) next
      simpa [hkind] using hstep

end Once

section Tracing

variable {Op : Type} {Res : Op → Type} {ε α C S : Type}

/-- The machine that also keeps the operations performed so far, with their replies. -/
def Machine.traced (m : Machine Op Res S) : Machine Op Res (S × List (Sigma Res)) where
  step o s r s' := m.step o s.1 r s'.1 ∧ s'.2 = s.2 ++ [⟨o, r⟩]

/-- The operation an event performed. -/
def Event.operation : Event Op Res ε α C → Option (Sigma Res)
  | .performed _ _ o r => some ⟨o, r⟩
  | _ => none

variable {m : Machine Op Res S} {body : C → Prog Op Res ε α}
  {guard : Config Op Res ε α C S → Event Op Res ε α C → Prop}

theorem Step.traced {cfg cfg' : Config Op Res ε α C S} {event : Event Op Res ε α C}
    (next : Step m body cfg event cfg') (trace : List (Sigma Res)) :
    Step m.traced body ⟨(cfg.state, trace), cfg.pool⟩ event
      ⟨(cfg'.state, trace ++ event.operation.toList), cfg'.pool⟩ := by
  cases next with
  | issue i c free =>
    have hstep : Step m.traced body ⟨(cfg.state, trace), cfg.pool⟩ _ _ := .issue _ i c free
    simpa [Event.operation] using hstep
  | perform i c o next r s' live done =>
    exact .perform ⟨(cfg.state, trace), cfg.pool⟩ i c o next r _ live ⟨done, rfl⟩
  | finish i c p out live ended =>
    have hstep : Step m.traced body ⟨(cfg.state, trace), cfg.pool⟩ _ _ :=
      .finish _ i c p out live ended
    simpa [Event.operation] using hstep
  | crash i =>
    have hstep : Step m.traced body ⟨(cfg.state, trace), cfg.pool⟩ _ _ := .crash _ i
    simpa [Event.operation] using hstep

/-- Every run of a machine is a run of the traced one, with the operations of its events. -/
theorem Run.traced {start cfg : Config Op Res ε α C S} {events : List (Event Op Res ε α C)}
    (run : Run m body guard start events cfg) :
    Run m.traced body (fun cfg event => guard ⟨cfg.state.1, cfg.pool⟩ event)
      ⟨(start.state, []), start.pool⟩ events
      ⟨(cfg.state, events.filterMap Event.operation), cfg.pool⟩ := by
  induction run with
  | refl => exact .refl
  | @snoc events cfg event cfg' before admitted next ih =>
    rw [List.filterMap_append]
    have hlast : [event].filterMap Event.operation = event.operation.toList := by
      cases hop : event.operation <;> simp [hop]
    rw [hlast]
    exact .snoc ih admitted (next.traced _)

end Tracing

section Playing

variable {Op : Type} {Res : Op → Type} {ε α C S : Type}

/-- One scheduling decision. -/
inductive Move (C : Type) where
  | issue (i : ℕ) (c : C)
  | exec (i : ℕ)
  | finish (i : ℕ)
  | crash (i : ℕ)

variable (exec : (o : Op) → S → Option (Res o × S)) (body : C → Prog Op Res ε α)
  (admits : Config Op Res ε α C S → C → Bool)

/-- Carries out one decision: `exec` performs or refuses operations, `admits` new calls. -/
def playMove (cfg : Config Op Res ε α C S) : Move C → Option (Config Op Res ε α C S)
  | .issue i c =>
    match cfg.pool i, admits cfg c with
    | none, true => some ⟨cfg.state, Function.update cfg.pool i (some (c, body c))⟩
    | _, _ => none
  | .exec i =>
    match cfg.pool i with
    | some (c, .call o next) => (exec o cfg.state).map fun done =>
      ⟨done.2, Function.update cfg.pool i (some (c, next done.1))⟩
    | _ => none
  | .finish i =>
    match cfg.pool i with
    | some (_, .call _ _) => none
    | some _ => some ⟨cfg.state, Function.update cfg.pool i none⟩
    | none => none
  | .crash i => some ⟨cfg.state, Function.update cfg.pool i none⟩

/-- Carries out a whole schedule, or stops where a decision is impossible. -/
def play : Config Op Res ε α C S → List (Move C) → Option (Config Op Res ε α C S)
  | cfg, [] => some cfg
  | cfg, move :: rest => (playMove exec body admits cfg move).bind (fun next => play next rest)

variable {exec body admits} {m : Machine Op Res S}

theorem playMove_step (hm : ∀ o s r s', exec o s = some (r, s') → m.step o s r s')
    {cfg cfg' : Config Op Res ε α C S} {move : Move C}
    (h : playMove exec body admits cfg move = some cfg') :
    ∃ event, Step m body cfg event cfg' ∧ ∀ i c, event = .issued i c → admits cfg c = true := by
  cases move with
  | issue i c =>
    simp only [playMove] at h
    split at h
    · next hfree hadmits =>
      cases h
      refine ⟨_, .issue cfg i c hfree, ?_⟩
      rintro j d ⟨⟩
      exact hadmits
    · cases h
  | exec i =>
    simp only [playMove] at h
    split at h
    · next c o next hlive =>
      obtain ⟨⟨r, s'⟩, hexec, rfl⟩ := Option.map_eq_some_iff.mp h
      exact ⟨_, .perform cfg i c o next r s' hlive (hm o _ r s' hexec), by rintro j d ⟨⟩⟩
    · cases h
  | finish i =>
    simp only [playMove] at h
    split at h
    · cases h
    · next c p hnot hlive =>
      cases h
      cases hp : p.2 with
      | ret a =>
        exact ⟨_, .finish cfg i p.1 p.2 (.ok a) hlive (by rw [hp]; rfl), by rintro j d ⟨⟩⟩
      | raise e =>
        exact ⟨_, .finish cfg i p.1 p.2 (.error e) hlive (by rw [hp]; rfl), by rintro j d ⟨⟩⟩
      | call o next => exact (hnot p.1 o next (by rw [← hp])).elim
    · cases h
  | crash i =>
    cases h
    exact ⟨_, .crash cfg i, by rintro j d ⟨⟩⟩

/-- Every schedule that can be carried out is a run of the pool. -/
theorem play_run (hm : ∀ o s r s', exec o s = some (r, s') → m.step o s r s')
    {guard : Config Op Res ε α C S → Event Op Res ε α C → Prop}
    (hguard : ∀ cfg event, (∀ i c, event = .issued i c → admits cfg c = true) →
      guard cfg event)
    {cfg cfg' : Config Op Res ε α C S} {moves : List (Move C)}
    (h : play exec body admits cfg moves = some cfg') :
    ∃ events, Run m body guard cfg events cfg' := by
  induction moves generalizing cfg with
  | nil =>
    cases h
    exact ⟨_, .refl⟩
  | cons move rest ih =>
    simp only [play] at h
    obtain ⟨mid, hmid, hrest⟩ := Option.bind_eq_some_iff.mp h
    obtain ⟨event, hstep, hissue⟩ := playMove_step hm hmid
    obtain ⟨events, hrun⟩ := ih hrest
    exact ⟨_, (Run.snoc .refl (hguard cfg event hissue) hstep).trans hrun⟩

/-- A schedule that ends with a property of the state reaches a state that has it. -/
theorem play_reaches (hm : ∀ o s r s', exec o s = some (r, s') → m.step o s r s')
    {guard : Config Op Res ε α C S → Event Op Res ε α C → Prop}
    (hguard : ∀ cfg event, (∀ i c, event = .issued i c → admits cfg c = true) →
      guard cfg event)
    {cfg : Config Op Res ε α C S} {moves : List (Move C)} {P : S → Prop} [DecidablePred P]
    (h : (play exec body admits cfg moves).any (fun last => decide (P last.state)) = true) :
    ∃ events cfg', Run m body guard cfg events cfg' ∧ P cfg'.state := by
  obtain ⟨last, hplay, hlast⟩ := (Option.any_eq_true _ _).mp h
  obtain ⟨events, hrun⟩ := play_run hm hguard hplay
  exact ⟨events, last, hrun, of_decide_eq_true hlast⟩

end Playing

section Recording

variable {Op : Type} {Res : Op → Type} {ε α C S : Type}

def Move.worker : Move C → ℕ
  | .issue i _ | .exec i | .finish i | .crash i => i

variable (exec : (o : Op) → S → Option (Res o × S)) (body : C → Prog Op Res ε α)
  (admits : Config Op Res ε α C S → Event Op Res ε α C → Bool)

/-- The event of one decision, and the configuration after it. -/
def recordMove (cfg : Config Op Res ε α C S) :
    Move C → Option (Event Op Res ε α C × Config Op Res ε α C S)
  | .issue i c =>
    match cfg.pool i with
    | none => some (.issued i c, ⟨cfg.state, Function.update cfg.pool i (some (c, body c))⟩)
    | some _ => none
  | .exec i =>
    match cfg.pool i with
    | some (c, .call o next) => (exec o cfg.state).map fun done =>
      (.performed i c o done.1, ⟨done.2, Function.update cfg.pool i (some (c, next done.1))⟩)
    | _ => none
  | .finish i =>
    match cfg.pool i with
    | some (c, p) => p.outcome.map fun out =>
      (.finished i c out, ⟨cfg.state, Function.update cfg.pool i none⟩)
    | none => none
  | .crash i => some (.crashed i, ⟨cfg.state, Function.update cfg.pool i none⟩)

/-- The events of a whole schedule, unless it makes an impossible decision or one that is not
admitted. -/
def record : Config Op Res ε α C S → List (Move C) →
    Option (List (Event Op Res ε α C) × Config Op Res ε α C S)
  | cfg, [] => some ([], cfg)
  | cfg, move :: rest =>
    (recordMove exec body cfg move).bind fun done =>
      if admits cfg done.1 then
        (record done.2 rest).map fun later => (done.1 :: later.1, later.2)
      else none

variable {exec body admits} {m : Machine Op Res S}

theorem recordMove_step (hm : ∀ o s r s', exec o s = some (r, s') → m.step o s r s')
    {cfg cfg' : Config Op Res ε α C S} {move : Move C} {event : Event Op Res ε α C}
    (h : recordMove exec body cfg move = some (event, cfg')) :
    Step m body cfg event cfg' ∧ ∀ j, j ≠ move.worker → cfg'.pool j = cfg.pool j := by
  cases move with
  | issue i c =>
    simp only [recordMove] at h
    split at h
    next hfree =>
      obtain ⟨rfl, rfl⟩ := Prod.mk.inj (Option.some.inj h)
      exact ⟨.issue cfg i c hfree, fun j hj => Function.update_of_ne hj _ _⟩
    next => cases h
  | exec i =>
    simp only [recordMove] at h
    split at h
    next c o next hlive =>
      obtain ⟨⟨r, s'⟩, hexec, heq⟩ := Option.map_eq_some_iff.mp h
      obtain ⟨rfl, rfl⟩ := Prod.mk.inj heq
      exact ⟨.perform cfg i c o next r s' hlive (hm o _ r s' hexec),
        fun j hj => Function.update_of_ne hj _ _⟩
    next => cases h
  | finish i =>
    simp only [recordMove] at h
    split at h
    next c p hlive =>
      obtain ⟨out, hended, heq⟩ := Option.map_eq_some_iff.mp h
      obtain ⟨rfl, rfl⟩ := Prod.mk.inj heq
      exact ⟨.finish cfg i c p out hlive hended, fun j hj => Function.update_of_ne hj _ _⟩
    next => cases h
  | crash i =>
    obtain ⟨rfl, rfl⟩ := Prod.mk.inj (Option.some.inj h)
    exact ⟨.crash cfg i, fun j hj => Function.update_of_ne hj _ _⟩

/-- A recorded schedule of workers below a bound is a run with the recorded events, and leaves the
other workers alone. -/
theorem record_run {n : ℕ} (hm : ∀ o s r s', exec o s = some (r, s') → m.step o s r s')
    {guard : Config Op Res ε α C S → Event Op Res ε α C → Prop}
    (hguard : ∀ cfg event, (∀ j, n ≤ j → cfg.pool j = none) → admits cfg event = true →
      guard cfg event)
    {cfg cfg' : Config Op Res ε α C S} {moves : List (Move C)}
    {events : List (Event Op Res ε α C)} (hfree : ∀ j, n ≤ j → cfg.pool j = none)
    (hworkers : ∀ move ∈ moves, move.worker < n)
    (h : record exec body admits cfg moves = some (events, cfg')) :
    Run m body guard cfg events cfg' ∧ ∀ j, n ≤ j → cfg'.pool j = none := by
  induction moves generalizing cfg events with
  | nil =>
    obtain ⟨rfl, rfl⟩ := Prod.mk.inj (Option.some.inj h)
    exact ⟨.refl, hfree⟩
  | cons move rest ih =>
    obtain ⟨⟨event, mid⟩, hmove, h⟩ := Option.bind_eq_some_iff.mp h
    by_cases hadmits : admits cfg event = true
    · rw [if_pos hadmits] at h
      obtain ⟨⟨later, last⟩, hlater, heq⟩ := Option.map_eq_some_iff.mp h
      obtain ⟨rfl, rfl⟩ := Prod.mk.inj heq
      obtain ⟨hstep, hother⟩ := recordMove_step hm hmove
      have hfree' : ∀ j, n ≤ j → mid.pool j = none := by
        intro j hj
        have := hworkers move List.mem_cons_self
        rw [hother j (by omega)]
        exact hfree j hj
      obtain ⟨hrest, hleft⟩ :=
        ih hfree' (fun move hmem => hworkers move (List.mem_cons_of_mem _ hmem)) hlater
      exact ⟨(Run.snoc .refl (hguard cfg event hfree hadmits) hstep).trans hrest, hleft⟩
    · rw [if_neg hadmits] at h
      cases h

/-- A schedule whose events have a property is a run with such events. -/
theorem record_reaches (n : ℕ) (moves : List (Move C))
    (admits : Config Op Res ε α C S → Event Op Res ε α C → Bool)
    (hm : ∀ o s r s', exec o s = some (r, s') → m.step o s r s')
    {guard : Config Op Res ε α C S → Event Op Res ε α C → Prop}
    (hguard : ∀ cfg event, (∀ j, n ≤ j → cfg.pool j = none) → admits cfg event = true →
      guard cfg event)
    {s : S} {P : List (Event Op Res ε α C) → Prop} [DecidablePred P]
    (hworkers : ∀ move ∈ moves, move.worker < n)
    (h : (record exec body admits (.start s) moves).any (fun done => decide (P done.1)) = true) :
    ∃ events cfg, Run m body guard (.start s) events cfg ∧ P events := by
  obtain ⟨⟨events, cfg⟩, hrecord, hevents⟩ := (Option.any_eq_true _ _).mp h
  exact ⟨events, cfg, (record_run hm hguard (fun _ _ => rfl) hworkers hrecord).1,
    of_decide_eq_true hevents⟩

/-- One more decision after a recorded schedule: a run, and a step from where it ends. -/
theorem record_then (n : ℕ) (moves : List (Move C)) (last : Move C)
    (admits : Config Op Res ε α C S → Event Op Res ε α C → Bool)
    (hm : ∀ o s r s', exec o s = some (r, s') → m.step o s r s')
    {guard : Config Op Res ε α C S → Event Op Res ε α C → Prop}
    (hguard : ∀ cfg event, (∀ j, n ≤ j → cfg.pool j = none) → admits cfg event = true →
      guard cfg event)
    {s : S} {P : S → Event Op Res ε α C → S → Bool}
    (hworkers : ∀ move ∈ moves, move.worker < n)
    (h : ((record exec body admits (.start s) moves).bind fun done =>
      (recordMove exec body done.2 last).map fun next =>
        P done.2.state next.1 next.2.state) = some true) :
    ∃ events cfg event cfg', Run m body guard (.start s) events cfg ∧
      Step m body cfg event cfg' ∧ P cfg.state event cfg'.state = true := by
  obtain ⟨⟨events, cfg⟩, hrecord, hlast⟩ := Option.bind_eq_some_iff.mp h
  obtain ⟨⟨event, cfg'⟩, hmove, hproperty⟩ := Option.map_eq_some_iff.mp hlast
  exact ⟨events, cfg, event, cfg', (record_run hm hguard (fun _ _ => rfl) hworkers hrecord).1,
    (recordMove_step hm hmove).1, hproperty⟩

end Recording

section Only

variable {Op : Type} {Res : Op → Type} {ε α β C S : Type} {good : Op → Prop}

/-- Whatever the replies, the program performs only operations of a kind. -/
def Prog.Only (good : Op → Prop) : Prog Op Res ε α → Prop
  | .ret _ => True
  | .raise _ => True
  | .call o next => good o ∧ ∀ r, (next r).Only good

theorem Prog.Only.bind {p : Prog Op Res ε α} {f : α → Prog Op Res ε β} (hp : p.Only good)
    (hf : ∀ a, (f a).Only good) : (p >>= f).Only good := by
  induction p with
  | ret a => exact hf a
  | raise e => trivial
  | call o next ih => exact ⟨hp.1, fun r => ih r (hp.2 r)⟩

theorem Prog.Only.tryCatch {p : Prog Op Res ε α} {h : ε → Prog Op Res ε α} (hp : p.Only good)
    (hh : ∀ e, (h e).Only good) : (p.tryCatch h).Only good := by
  induction p with
  | ret a => trivial
  | raise e => exact hh e
  | call o next ih => exact ⟨hp.1, fun r => ih r (hp.2 r)⟩

/-- A program whose kind of operations keeps the discipline in every state. -/
theorem Safe.of_only {m : Machine Op Res S} {D : Discipline S}
    (hstep : ∀ o t r t', good o → D.inv t → m.step o t r t' → D.inv t' ∧ D.le t t')
    {p : Prog Op Res ε α} (hp : p.Only good) (s : S) :
    Safe m D (fun _ _ => True) (fun _ _ => True) p s := by
  induction p generalizing s with
  | ret a => trivial
  | raise e => trivial
  | call o next ih =>
    intro t ht hinv r t' hdone
    obtain ⟨hi, hl⟩ := hstep o t r t' hp.1 hinv hdone
    exact ⟨hi, hl, ih r (hp.2 r) t'⟩

variable {m : Machine Op Res S} {body : C → Prog Op Res ε α}
  {guard : Config Op Res ε α C S → Event Op Res ε α C → Prop}
  {cfg cfg' : Config Op Res ε α C S}

/-- What is left of any call performs only operations of the kind. -/
theorem Run.only {s : S} {events : List (Event Op Res ε α C)}
    (run : Run m body guard (.start s) events cfg) (hbody : ∀ c, (body c).Only good) :
    ∀ i c p, cfg.pool i = some (c, p) → p.Only good := by
  induction run with
  | refl => simp [Config.start]
  | @snoc events cfg event cfg' before admitted next ih =>
    intro i c p hlive
    rcases next.live hlive with ⟨-, -, -, rfl⟩ | ⟨o, rest, r, -, live, -, rfl⟩ | hold
    · exact hbody c
    · exact (ih i c _ live).2 r
    · exact ih i c p hold

end Only

end Interleaving
