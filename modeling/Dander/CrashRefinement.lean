import Dander.Interleaving

/-!
# Sequences of calls cut by crashes, and what they refine

One process runs one call after another, each to its end or cut between two operations.
`Ensures` is the rule for one call: a condition that holds wherever it is cut, one for what it
returns and one for what it raises. A session mirrors an abstract system whose calls are
atomic if every call is matched by one atomic call, or was cut and left no trace.
-/
namespace Interleaving

section Calls

variable {Op : Type} {Res : Op → Type} {ε α β S : Type}
variable (m : Machine Op Res S) (K : S → Prop)

/-- Wherever the program, run alone, is cut, ends or fails, the three conditions hold. -/
def Ensures (Q : α → S → Prop) (E : ε → S → Prop) : Prog Op Res ε α → S → Prop
  | .ret a, s => K s ∧ Q a s
  | .raise e, s => K s ∧ E e s
  | .call o next, s => K s ∧ ∀ r t, m.step o s r t → Ensures Q E (next r) t

variable {m K} {Q : α → S → Prop} {E : ε → S → Prop}

theorem Ensures.alone {p : Prog Op Res ε α} {s t : S} {out : Option (Except ε α)}
    (run : Alone m p s out t) (hp : Ensures m K Q E p s) :
    (out = none → K t) ∧ (∀ a, out = some (.ok a) → Q a t) ∧
      (∀ e, out = some (.error e) → E e t) := by
  induction run with
  | @ended p out s done =>
    cases p with
    | ret a =>
      obtain rfl : Except.ok a = out := by simpa [Prog.outcome] using done
      simpa using hp.2
    | raise e =>
      obtain rfl : Except.error e = out := by simpa [Prog.outcome] using done
      simpa using hp.2
    | call o next => simp [Prog.outcome] at done
  | cut p s =>
    have hcut : K s := by
      cases p with
      | ret a => exact hp.1
      | raise e => exact hp.1
      | call o next => exact hp.1
    simpa using hcut
  | perform done rest ih => exact ih (hp.2 _ _ done)

theorem Ensures.mono {Q' : α → S → Prop} {p : Prog Op Res ε α} {s : S}
    (hp : Ensures m K Q E p s) (hQ : ∀ a t, Q a t → Q' a t) : Ensures m K Q' E p s := by
  induction p generalizing s with
  | ret a => exact ⟨hp.1, hQ a s hp.2⟩
  | raise e => exact hp
  | call o next ih =>
    refine ⟨hp.1, ?_⟩
    intro r t hstep
    exact ih r (hp.2 r t hstep)

theorem Ensures.bind {p : Prog Op Res ε α} {f : α → Prog Op Res ε β} {R : β → S → Prop} {s : S}
    (hp : Ensures m K (fun a t => Ensures m K R E (f a) t) E p s) :
    Ensures m K R E (p >>= f) s := by
  induction p generalizing s with
  | ret a => exact hp.2
  | raise e => exact hp
  | call o next ih =>
    refine ⟨hp.1, ?_⟩
    intro r t hstep
    exact ih r (hp.2 r t hstep)

end Calls

section Sessions

variable {Op : Type} {Res : Op → Type} {ε α C S A : Type}

/-- One call of a session, and its outcome unless it was cut. -/
structure Attempt (ε α C : Type) where
  call : C
  outcome : Option (Except ε α)

/-- A process that runs one call after another, each to its end or cut. The guard sees the
calls before. -/
inductive Session (m : Machine Op Res S) (body : C → Prog Op Res ε α)
    (guard : List C → S → C → Prop) (start : S) : List (Attempt ε α C) → S → Prop
  | refl : Session m body guard start [] start
  | snoc {attempts s c out t} (before : Session m body guard start attempts s)
      (admitted : guard (attempts.map Attempt.call) s c) (run : Alone m (body c) s out t) :
      Session m body guard start (attempts ++ [⟨c, out⟩]) t

/-- The same outcomes come from atomic calls of an abstract system, made in the same order;
only calls that were cut may be missing there. The trace lists the abstract calls. -/
inductive Mirrored (act : C → A → Except ε α → A → Prop)
    (same : Except ε α → Except ε α → Prop) (start : A) :
    List (Attempt ε α C) → List (C × A × A) → A → Prop
  | refl : Mirrored act same start [] [] start
  | skip {attempts trace a c} (before : Mirrored act same start attempts trace a) :
      Mirrored act same start (attempts ++ [⟨c, none⟩]) trace a
  | take {attempts trace a c out result a'} (before : Mirrored act same start attempts trace a)
      (done : act c a result a') (agree : ∀ reply, out = some reply → same reply result) :
      Mirrored act same start (attempts ++ [⟨c, out⟩]) (trace ++ [(c, a, a')]) a'

variable {m : Machine Op Res S} {body : C → Prog Op Res ε α} {guard : List C → S → C → Prop}
variable {act : C → A → Except ε α → A → Prop} {same : Except ε α → Except ε α → Prop}

/-- Forward simulation: if every admitted call, wherever it is cut, can be skipped or matched
by one abstract call, then every session mirrors a run of the abstract system. -/
theorem Session.mirrored {R : List C → S → A → Prop} {s t : S} {a : A}
    {attempts : List (Attempt ε α C)} (session : Session m body guard s attempts t)
    (hstart : R [] s a)
    (hstep : ∀ calls s a c out t, R calls s a → guard calls s c → Alone m (body c) s out t →
      (out = none ∧ R (calls ++ [c]) t a) ∨
        ∃ result a', act c a result a' ∧ (∀ reply, out = some reply → same reply result) ∧
          R (calls ++ [c]) t a') :
    ∃ trace a', Mirrored act same a attempts trace a' ∧
      R (attempts.map Attempt.call) t a' := by
  induction session with
  | refl => exact ⟨[], a, .refl, hstart⟩
  | @snoc attempts s c out t before admitted run ih =>
    obtain ⟨trace, b, hmirrored, hrelated⟩ := ih
    rw [List.map_append, List.map_singleton]
    rcases hstep _ _ _ _ _ _ hrelated admitted run with ⟨rfl, hskip⟩ | ⟨result, b', hact, hsame, hr⟩
    · exact ⟨trace, b, .skip hmirrored, hskip⟩
    · exact ⟨_, b', .take hmirrored hact hsame, hr⟩

theorem Mirrored.eq_of_nil {trace : List (C × A × A)} {a b : A}
    (h : Mirrored act same a ([] : List (Attempt ε α C)) trace b) : b = a := by
  generalize hall : ([] : List (Attempt ε α C)) = all at h
  cases h with
  | refl => rfl
  | skip before => simp at hall
  | take before done agree => simp at hall

theorem Mirrored.snoc_cases {attempts : List (Attempt ε α C)} {c : C}
    {out : Option (Except ε α)} {trace : List (C × A × A)} {a b : A}
    (h : Mirrored act same a (attempts ++ [⟨c, out⟩]) trace b) :
    (out = none ∧ Mirrored act same a attempts trace b) ∨
      ∃ earlier mid result, Mirrored act same a attempts earlier mid ∧ act c mid result b ∧
        ∀ reply, out = some reply → same reply result := by
  generalize hall : attempts ++ [⟨c, out⟩] = all at h
  cases h with
  | refl => simp at hall
  | skip before =>
    obtain ⟨rfl, hlast⟩ := List.append_inj' hall rfl
    simp only [List.cons.injEq, Attempt.mk.injEq, and_true] at hlast
    exact .inl ⟨hlast.2, before⟩
  | take before done agree =>
    obtain ⟨rfl, hlast⟩ := List.append_inj' hall rfl
    simp only [List.cons.injEq, Attempt.mk.injEq, and_true] at hlast
    obtain ⟨rfl, rfl⟩ := hlast
    exact .inr ⟨_, _, _, before, done, agree⟩

/-- What every abstract call keeps holds at the end of what a session mirrors. -/
theorem Mirrored.invariant {P : List (C × A × A) → A → Prop} {a b : A}
    {attempts : List (Attempt ε α C)} {trace : List (C × A × A)}
    (mirrored : Mirrored act same a attempts trace b) (hstart : P [] a)
    (hkeep : ∀ trace a c result a', P trace a → act c a result a' →
      P (trace ++ [(c, a, a')]) a') : P trace b := by
  induction mirrored with
  | refl => exact hstart
  | skip _ ih => exact ih
  | take _ done _ ih => exact hkeep _ _ _ _ _ ih done

end Sessions

section Executing

variable {Op : Type} {Res : Op → Type} {ε α C S : Type}
variable (exec : (o : Op) → S → Option (Res o × S))

/-- Performs at most the given number of operations; stops where `exec` refuses one. -/
def runAlone : ℕ → Prog Op Res ε α → S → Option (Except ε α) × S
  | _, .ret a, s => (some (.ok a), s)
  | _, .raise e, s => (some (.error e), s)
  | 0, .call _ _, s => (none, s)
  | n + 1, .call o next, s =>
    match exec o s with
    | some (r, t) => runAlone n (next r) t
    | none => (none, s)

/-- Makes the calls one after another, each cut after the given number of operations. -/
def playSession (body : C → Prog Op Res ε α) (admits : List C → S → C → Bool) :
    List C → S → List (C × ℕ) → Option (List (Attempt ε α C) × S)
  | _, s, [] => some ([], s)
  | calls, s, (c, n) :: rest =>
    if admits calls s c then
      let done := runAlone exec n (body c) s
      (playSession body admits (calls ++ [c]) done.2 rest).map fun later =>
        (⟨c, done.1⟩ :: later.1, later.2)
    else none

variable {exec} {m : Machine Op Res S} {body : C → Prog Op Res ε α}
  {admits : List C → S → C → Bool} {guard : List C → S → C → Prop}

theorem alone_runAlone (hm : ∀ o s r s', exec o s = some (r, s') → m.step o s r s') (n : ℕ)
    (p : Prog Op Res ε α) (s : S) :
    Alone m p s (runAlone exec n p s).1 (runAlone exec n p s).2 := by
  induction n generalizing p s with
  | zero =>
    cases p with
    | ret a => exact .ended s rfl
    | raise e => exact .ended s rfl
    | call o next => exact .cut _ s
  | succ n ih =>
    cases p with
    | ret a => exact .ended s rfl
    | raise e => exact .ended s rfl
    | call o next =>
      simp only [runAlone]
      split
      next r t hexec => exact .perform (hm _ _ _ _ hexec) (ih _ _)
      · exact .cut _ s

theorem Session.trans {s t u : S} {first second : List (Attempt ε α C)}
    (before : Session m body guard s first t)
    (after : Session m body (fun calls => guard (first.map Attempt.call ++ calls)) t second u) :
    Session m body guard s (first ++ second) u := by
  induction after with
  | refl => simpa using before
  | snoc _ admitted run ih =>
    rw [← List.append_assoc]
    exact .snoc ih (by simpa using admitted) run

/-- A schedule that can be carried out is a session. -/
theorem session_of_playSession
    (hm : ∀ o s r s', exec o s = some (r, s') → m.step o s r s')
    (hguard : ∀ calls s c, admits calls s c = true → guard calls s c) {calls : List C} {s t : S}
    {moves : List (C × ℕ)} {attempts : List (Attempt ε α C)}
    (h : playSession exec body admits calls s moves = some (attempts, t)) :
    Session m body (fun later => guard (calls ++ later)) s attempts t := by
  induction moves generalizing calls s attempts with
  | nil =>
    simp only [playSession, Option.some.injEq, Prod.mk.injEq] at h
    obtain ⟨rfl, rfl⟩ := h
    exact .refl
  | cons move rest ih =>
    obtain ⟨c, n⟩ := move
    simp only [playSession] at h
    split at h
    next hadmits =>
      obtain ⟨later, hlater, heq⟩ := Option.map_eq_some_iff.mp h
      obtain ⟨rfl, rfl⟩ : _ ∧ _ := by simpa using heq
      have hone : Session m body (fun later => guard (calls ++ later)) s
          ([] ++ [⟨c, (runAlone exec n (body c) s).1⟩]) (runAlone exec n (body c) s).2 :=
        .snoc .refl (by simpa using hguard _ _ _ hadmits) (alone_runAlone hm n _ _)
      refine Session.trans hone ?_
      simpa using ih hlater
    · cases h

theorem calls_of_playSession {calls : List C} {s t : S} {moves : List (C × ℕ)}
    {attempts : List (Attempt ε α C)}
    (h : playSession exec body admits calls s moves = some (attempts, t)) :
    attempts.map Attempt.call = moves.map Prod.fst := by
  induction moves generalizing calls s attempts with
  | nil =>
    simp only [playSession, Option.some.injEq, Prod.mk.injEq] at h
    simp [← h.1]
  | cons move rest ih =>
    obtain ⟨c, n⟩ := move
    simp only [playSession] at h
    split at h
    · obtain ⟨⟨later, last⟩, hlater, heq⟩ := Option.map_eq_some_iff.mp h
      simp only [Prod.mk.injEq] at heq
      obtain ⟨rfl, rfl⟩ := heq
      simp [ih hlater]
    · cases h

end Executing

end Interleaving
