import Dander.Interleaving

/-!
# One owner among other workers

Part of the state belongs to one worker. The steps of the others move the state along a relation
on which the owner relies, and what the owner knows of its own part survives them. `Owned` is the
proof rule for the owner's programs: unlike in `Safe`, its own steps need not follow the relation.
-/
namespace Interleaving

section Recorded

variable {Op : Type} {Res : Op → Type} {S : Type}

/-- The machine that also keeps the operations performed, the last one first, each with its reply
and the state it found. -/
def Machine.recorded (m : Machine Op Res S) : Machine Op Res (S × List (S × Sigma Res)) where
  step o s r s' := m.step o s.1 r s'.1 ∧ s'.2 = (s.1, ⟨o, r⟩) :: s.2

end Recorded

section Owned

variable {Op : Type} {Res : Op → Type} {ε α β S : Type}
variable (m : Machine Op Res S) (D : Discipline S) (G : (o : Op) → S → Res o → S → Prop)

/-- From state `s` on, whatever the others do meanwhile, every operation of the program keeps the
invariant and its promise, and its end satisfies the postcondition. -/
def Owned (Q : α → S → Prop) (E : ε → S → Prop) : Prog Op Res ε α → S → Prop
  | .ret a, s => Q a s
  | .raise e, s => E e s
  | .call o next, s => ∀ t, D.le s t → D.inv t → ∀ r t', m.step o t r t' →
      D.inv t' ∧ G o t r t' ∧ Owned Q E (next r) t'

variable {m D G}
variable {Q : α → S → Prop} {E E' : ε → S → Prop}

theorem Owned.mono {p : Prog Op Res ε α} {s t : S} (hp : Owned m D G Q E p s)
    (hQ : Stable D Q) (hE : Stable D E) (hle : D.le s t) : Owned m D G Q E p t := by
  cases p with
  | ret a => exact hQ a s t hle hp
  | raise e => exact hE e s t hle hp
  | call o next =>
    intro u hu hinv r u' hstep
    exact hp u (D.trans _ _ _ hle hu) hinv r u' hstep

theorem Owned.weaken {Q' : α → S → Prop} {p : Prog Op Res ε α} {s : S}
    (hp : Owned m D G Q E p s) (hQ : ∀ a t, Q a t → Q' a t) : Owned m D G Q' E p s := by
  induction p generalizing s with
  | ret a => exact hQ a s hp
  | raise e => exact hp
  | call o next ih =>
    intro t ht hinv r t' hstep
    obtain ⟨hi, hg, hs⟩ := hp t ht hinv r t' hstep
    exact ⟨hi, hg, ih r hs⟩

theorem Owned.bind {p : Prog Op Res ε α} {f : α → Prog Op Res ε β} {s : S} {R : β → S → Prop}
    (hp : Owned m D G Q E p s) (hf : ∀ a t, Q a t → Owned m D G R E (f a) t) :
    Owned m D G R E (p >>= f) s := by
  induction p generalizing s with
  | ret a => exact hf a s hp
  | raise e => exact hp
  | call o next ih =>
    intro t ht hinv r t' hstep
    obtain ⟨hi, hg, hs⟩ := hp t ht hinv r t' hstep
    exact ⟨hi, hg, ih r hs⟩

theorem Owned.tryCatch {p : Prog Op Res ε α} {h : ε → Prog Op Res ε α} {s : S}
    (hp : Owned m D G Q E' p s) (hh : ∀ e t, E' e t → Owned m D G Q E (h e) t) :
    Owned m D G Q E (p.tryCatch h) s := by
  induction p generalizing s with
  | ret a => exact hp
  | raise e => exact hh e s hp
  | call o next ih =>
    intro t ht hinv r t' hstep
    obtain ⟨hi, hg, hs⟩ := hp t ht hinv r t' hstep
    exact ⟨hi, hg, ih r hs⟩

section Alone

/-- A program without other workers. -/
def Discipline.sole (S : Type) : Discipline S where
  inv _ := True
  le s t := t = s
  refl _ := rfl
  trans _ _ _ hab hbc := hbc.trans hab

/-- What holds where a program that runs alone returns. -/
abbrev Ends (m : Machine Op Res S) (Q : α → S → Prop) (p : Prog Op Res ε α) (s : S) : Prop :=
  Owned m (.sole S) (fun _ _ _ _ => True) Q (fun _ _ => True) p s

theorem Ends.call {o : Op} {next : Res o → Prog Op Res ε α} {s : S}
    (h : ∀ r t, m.step o s r t → Ends m Q (next r) t) : Ends m Q (.call o next) s := by
  intro t ht _ r t' hstep
  obtain rfl : t = s := ht
  exact ⟨trivial, trivial, h r t' hstep⟩

theorem Owned.alone {p : Prog Op Res ε α} {s t : S} {out : Option (Except ε α)}
    (run : Alone m p s out t) (hp : Owned m D G Q E p s) (hinv : D.inv s) :
    ∀ a, out = some (.ok a) → Q a t := by
  induction run with
  | @ended p out s done =>
    rintro a ⟨⟩
    cases p with
    | ret b =>
      obtain rfl : b = a := by simpa [Prog.outcome] using done
      exact hp
    | raise e => simp [Prog.outcome] at done
    | call o next => simp [Prog.outcome] at done
  | cut p s => rintro a ⟨⟩
  | @perform o next r s t u out done rest ih =>
    obtain ⟨hi, -, hs⟩ := hp s (D.refl s) hinv r t done
    exact ih hs hi

/-- A program that is answered by a function runs alone. -/
theorem Alone.of_eval {exec : (o : Op) → S → Option (Res o × S)}
    (hm : ∀ o s r t, exec o s = some (r, t) → m.step o s r t) {p : Prog Op Res ε α} {s t : S}
    {out : Except ε α} (h : p.eval exec s = some (out, t)) : Alone m p s (some out) t := by
  induction p generalizing s with
  | ret a =>
    obtain ⟨rfl, rfl⟩ := Prod.mk.inj (Option.some.inj h)
    exact .ended s rfl
  | raise e =>
    obtain ⟨rfl, rfl⟩ := Prod.mk.inj (Option.some.inj h)
    exact .ended s rfl
  | call o next ih =>
    unfold Prog.eval at h
    cases hexec : exec o s with
    | none =>
      rw [hexec] at h
      cases h
    | some served =>
      rw [hexec] at h
      exact .perform (hm o s _ _ hexec) (ih served.1 h)

end Alone

end Owned

section Pool

variable {Op : Type} {Res : Op → Type} {ε α C S : Type}
variable {m : Machine Op Res S} {D : Discipline S} {G : (o : Op) → S → Res o → S → Prop}
  {Q : C → α → S → Prop} {E : C → ε → S → Prop}
variable {good : Op → Prop} {idle : S → Prop} {owner : ℕ} {body : C → Prog Op Res ε α}
  {guard : Config Op Res ε α C S → Event Op Res ε α C → Prop}
  {cfg cfg' : Config Op Res ε α C S} {event : Event Op Res ε α C}

/-- The owner idles, or is in a call that it owns; the others perform only other operations. -/
structure PoolOwned (m : Machine Op Res S) (D : Discipline S)
    (G : (o : Op) → S → Res o → S → Prop) (Q : C → α → S → Prop) (E : C → ε → S → Prop)
    (good : Op → Prop) (idle : S → Prop) (owner : ℕ) (cfg : Config Op Res ε α C S) : Prop where
  inv : D.inv cfg.state
  others : ∀ i c p, i ≠ owner → cfg.pool i = some (c, p) → p.Only good
  waiting : cfg.pool owner = none → idle cfg.state
  calling : ∀ c p, cfg.pool owner = some (c, p) → Owned m D G (Q c) (E c) p cfg.state

/-- What admits the owner's calls, and the calls of the others. -/
structure Admits (m : Machine Op Res S) (D : Discipline S)
    (G : (o : Op) → S → Res o → S → Prop) (Q : C → α → S → Prop) (E : C → ε → S → Prop)
    (good : Op → Prop) (idle : S → Prop) (owner : ℕ) (body : C → Prog Op Res ε α)
    (guard : Config Op Res ε α C S → Event Op Res ε α C → Prop) : Prop where
  stable : ∀ s t, D.le s t → idle s → idle t
  returned : ∀ c, Stable D (Q c)
  raised : ∀ c, Stable D (E c)
  kept : ∀ o s r s', good o → D.inv s → m.step o s r s' → D.inv s' ∧ D.le s s'
  crashed : ∀ cfg, ¬ guard cfg (.crashed owner)
  issued : ∀ cfg c, guard cfg (.issued owner c) → D.inv cfg.state → idle cfg.state →
    Owned m D G (Q c) (E c) (body c) cfg.state
  other : ∀ cfg i c, guard cfg (.issued i c) → i ≠ owner → (body c).Only good
  ended : ∀ cfg c a, guard cfg (.finished owner c (.ok a)) → Q c a cfg.state → idle cfg.state
  failed : ∀ cfg c e, guard cfg (.finished owner c (.error e)) → E c e cfg.state → idle cfg.state

theorem PoolOwned.start {s : S} (hinv : D.inv s) (hidle : idle s) :
    PoolOwned m D G Q E good idle owner (.start s : Config Op Res ε α C S) := by
  refine ⟨hinv, ?_, fun _ => hidle, ?_⟩
  · simp [Config.start]
  · simp [Config.start]

theorem PoolOwned.step (hadmits : Admits m D G Q E good idle owner body guard)
    (owned : PoolOwned m D G Q E good idle owner cfg) (admitted : guard cfg event)
    (next : Step m body cfg event cfg') : PoolOwned m D G Q E good idle owner cfg' := by
  cases next with
  | issue i c free =>
    refine ⟨owned.inv, ?_, ?_, ?_⟩
    · intro j d p hj hpool
      by_cases hji : j = i
      · subst hji
        simp only [Function.update_self, Option.some.injEq, Prod.mk.injEq] at hpool
        rw [← hpool.2]
        exact hadmits.other cfg j c admitted hj
      · simp only [Function.update_of_ne hji] at hpool
        exact owned.others j d p hj hpool
    · intro hnone
      by_cases hi : owner = i
      · subst hi
        simp at hnone
      · simp only [Function.update_of_ne hi] at hnone
        exact owned.waiting hnone
    · intro d p hpool
      by_cases hi : owner = i
      · subst hi
        simp only [Function.update_self, Option.some.injEq, Prod.mk.injEq] at hpool
        obtain ⟨rfl, rfl⟩ := hpool
        exact hadmits.issued cfg c admitted owned.inv (owned.waiting free)
      · simp only [Function.update_of_ne hi] at hpool
        exact owned.calling d p hpool
  | perform i c o next r s' live done =>
    by_cases hi : i = owner
    · subst hi
      obtain ⟨hinv, -, howned⟩ := owned.calling c _ live _ (D.refl _) owned.inv r s' done
      refine ⟨hinv, ?_, ?_, ?_⟩
      · intro j d p hj hpool
        simp only [Function.update_of_ne hj] at hpool
        exact owned.others j d p hj hpool
      · intro hnone
        simp at hnone
      · intro d p hpool
        simp only [Function.update_self, Option.some.injEq, Prod.mk.injEq] at hpool
        obtain ⟨rfl, rfl⟩ := hpool
        exact howned
    · have hgood := owned.others i c _ hi live
      obtain ⟨hinv, hle⟩ := hadmits.kept o _ r s' hgood.1 owned.inv done
      refine ⟨hinv, ?_, ?_, ?_⟩
      · intro j d p hj hpool
        by_cases hji : j = i
        · subst hji
          simp only [Function.update_self, Option.some.injEq, Prod.mk.injEq] at hpool
          rw [← hpool.2]
          exact hgood.2 r
        · simp only [Function.update_of_ne hji] at hpool
          exact owned.others j d p hj hpool
      · intro hnone
        simp only [Function.update_of_ne (Ne.symm hi)] at hnone
        exact hadmits.stable _ _ hle (owned.waiting hnone)
      · intro d p hpool
        simp only [Function.update_of_ne (Ne.symm hi)] at hpool
        exact (owned.calling d p hpool).mono (hadmits.returned d) (hadmits.raised d) hle
  | finish i c p out live ended =>
    refine ⟨owned.inv, ?_, ?_, ?_⟩
    · intro j d q hj hpool
      exact owned.others j d q hj (live_of_update_none hpool).2
    · intro hnone
      by_cases hi : owner = i
      · subst hi
        have howned := owned.calling c p live
        cases p with
        | ret a =>
          obtain rfl := Option.some.inj ended
          exact hadmits.ended cfg c a admitted howned
        | raise e =>
          obtain rfl := Option.some.inj ended
          exact hadmits.failed cfg c e admitted howned
        | call o next => cases ended
      · simp only [Function.update_of_ne hi] at hnone
        exact owned.waiting hnone
    · intro d q hpool
      exact owned.calling d q (live_of_update_none hpool).2
  | crash i =>
    by_cases hi : i = owner
    · subst hi
      exact absurd admitted (hadmits.crashed cfg)
    · refine ⟨owned.inv, ?_, ?_, ?_⟩
      · intro j d q hj hpool
        exact owned.others j d q hj (live_of_update_none hpool).2
      · intro hnone
        simp only [Function.update_of_ne (Ne.symm hi)] at hnone
        exact owned.waiting hnone
      · intro d q hpool
        exact owned.calling d q (live_of_update_none hpool).2

/-- In every run that is admitted, what the owner knows and the invariant hold throughout. -/
theorem Run.owned {start : Config Op Res ε α C S} {events : List (Event Op Res ε α C)}
    (hadmits : Admits m D G Q E good idle owner body guard)
    (run : Run m body guard start events cfg)
    (h0 : PoolOwned m D G Q E good idle owner start) :
    PoolOwned m D G Q E good idle owner cfg := by
  induction run with
  | refl => exact h0
  | snoc _ admitted next ih => exact ih.step hadmits admitted next

/-- Every step of the owner keeps its promise. -/
theorem PoolOwned.promised {i : ℕ} {c : C} {o : Op} {r : Res o}
    (owned : PoolOwned m D G Q E good idle owner cfg)
    (next : Step m body cfg (.performed i c o r) cfg') :
    (i = owner → G o cfg.state r cfg'.state) ∧ (i ≠ owner → good o) := by
  cases next with
  | perform _ _ _ next _ s' live done =>
    constructor
    · intro hi
      subst hi
      exact (owned.calling c _ live _ (D.refl _) owned.inv r s' done).2.1
    · intro hi
      exact (owned.others i c _ hi live).1

end Pool

end Interleaving
