import Dander.Interleaving
import Mathlib.Logic.Relation

/-!
# The operations of one call

What a live call has performed since it was issued, and how it fares when it is followed through
a run: each of its operations keeps the promise it made. A program may also be taken by itself,
while others change the state between its operations.
-/
namespace Interleaving

section Reaching

variable {Op : Type} {Res : Op → Type} {ε α C S : Type}

/-- The program may perform these operations, and then this program is left of it. -/
inductive Prog.Reaches : Prog Op Res ε α → List (Sigma Res) → Prog Op Res ε α → Prop
  | refl (p : Prog Op Res ε α) : Reaches p [] p
  | snoc {p : Prog Op Res ε α} {done : List (Sigma Res)} {o : Op} {next : Res o → Prog Op Res ε α}
      (before : Reaches p done (.call o next)) (r : Res o) :
      Reaches p (done ++ [⟨o, r⟩]) (next r)

/-- Its first operation is the one it starts with. -/
theorem Prog.Reaches.of_call {o : Op} {next : Res o → Prog Op Res ε α} {done : List (Sigma Res)}
    {p : Prog Op Res ε α} (h : (Prog.call o next).Reaches done p) :
    (done = [] ∧ p = .call o next) ∨
      ∃ r rest, done = ⟨o, r⟩ :: rest ∧ (next r).Reaches rest p := by
  induction h with
  | refl => exact .inl ⟨rfl, rfl⟩
  | @snoc done o' next' before r ih =>
    right
    rcases ih with ⟨rfl, heq⟩ | ⟨r', rest, rfl, hrest⟩
    · cases heq
      exact ⟨r, [], rfl, .refl _⟩
    · exact ⟨r', rest ++ [⟨o', r⟩], rfl, hrest.snoc r⟩

theorem Prog.Reaches.of_raise {e : ε} {done : List (Sigma Res)} {p : Prog Op Res ε α}
    (h : (Prog.raise e : Prog Op Res ε α).Reaches done p) : p = .raise e := by
  induction h with
  | refl => rfl
  | snoc before r ih => cases ih

/-- One event's part in what the live call of a worker has performed. -/
def performedNext (i : ℕ) (done : List (Sigma Res)) : Event Op Res ε α C → List (Sigma Res)
  | .issued j _ => if j = i then [] else done
  | .performed j _ o r => if j = i then done ++ [⟨o, r⟩] else done
  | .finished .. => done
  | .crashed _ => done

/-- What the live call of a worker has performed. -/
def performedBy (i : ℕ) (events : List (Event Op Res ε α C)) : List (Sigma Res) :=
  events.foldl (performedNext i) []

theorem performedBy_snoc (i : ℕ) (events : List (Event Op Res ε α C))
    (event : Event Op Res ε α C) :
    performedBy i (events ++ [event]) = performedNext i (performedBy i events) event := by
  simp [performedBy]

variable {m : Machine Op Res S} {body : C → Prog Op Res ε α}
  {guard : Config Op Res ε α C S → Event Op Res ε α C → Prop}

/-- What a live call has performed has brought it where it is. -/
theorem Run.reaches {s : S} {events : List (Event Op Res ε α C)} {cfg : Config Op Res ε α C S}
    (run : Run m body guard (.start s) events cfg) {i : ℕ} {c : C} {p : Prog Op Res ε α}
    (live : cfg.pool i = some (c, p)) : (body c).Reaches (performedBy i events) p := by
  induction run generalizing c p with
  | refl => cases live
  | @snoc events mid event last before admitted next ih =>
    rw [performedBy_snoc]
    cases next with
    | issue j d free =>
      by_cases hij : j = i
      · subst hij
        simp only [Function.update_self, Option.some.injEq, Prod.mk.injEq] at live
        obtain ⟨rfl, rfl⟩ := live
        simp only [performedNext, if_true]
        exact .refl _
      · simp only [Function.update_of_ne (Ne.symm hij)] at live
        simp only [performedNext, if_neg hij]
        exact ih live
    | perform j d o next r s' turn done =>
      by_cases hij : j = i
      · subst hij
        simp only [Function.update_self, Option.some.injEq, Prod.mk.injEq] at live
        obtain ⟨rfl, rfl⟩ := live
        simp only [performedNext, if_true]
        exact (ih turn).snoc r
      · simp only [Function.update_of_ne (Ne.symm hij)] at live
        simp only [performedNext, if_neg hij]
        exact ih live
    | finish j d q out turn ended => exact ih (live_of_update_none live).2
    | crash j => exact ih (live_of_update_none live).2

end Reaching

section Machines

variable {Op : Type} {Res : Op → Type} {ε α S : Type} {m m' : Machine Op Res S} {D : Discipline S}
  {Q : α → S → Prop} {E : ε → S → Prop}

/-- A machine that does less is no danger. -/
theorem Safe.of_machine (hm : ∀ o s r t, m'.step o s r t → m.step o s r t) {p : Prog Op Res ε α}
    {s : S} (hp : Safe m D Q E p s) : Safe m' D Q E p s := by
  induction p generalizing s with
  | ret a => exact hp
  | raise e => exact hp
  | call o next ih =>
    intro t ht hinv r t' hstep
    obtain ⟨hinv', hle', hnext⟩ := hp t ht hinv r t' (hm o t r t' hstep)
    exact ⟨hinv', hle', ih r hnext⟩

/-- A safe program that performs only operations of a kind. -/
theorem Prog.Only.guarded {G : Op → Prop} {p : Prog Op Res ε α} (honly : p.Only G) {s : S}
    (hp : Safe m D Q E p s) : Guarded m D (fun o _ _ _ _ => G o) Q E p s := by
  induction p generalizing s with
  | ret a => exact hp
  | raise e => exact hp
  | call o next ih =>
    intro t ht hinv r t' hstep
    obtain ⟨hinv', hle', hnext⟩ := hp t ht hinv r t' hstep
    exact ⟨hinv', hle', honly.1, ih r (honly.2 r) hnext⟩

end Machines

section Interrupted

open Relation (ReflTransGen)

variable {Op : Type} {Res : Op → Type} {ε α β S : Type}

/-- A program taken to its end, while others change the state before each of its operations. -/
inductive Among (m : Machine Op Res S) (others : S → S → Prop) :
    Prog Op Res ε α → S → Except ε α → S → Prop
  | ret (a : α) (s : S) : Among m others (.ret a) s (.ok a) s
  | raise (e : ε) (s : S) : Among m others (.raise e) s (.error e) s
  | perform {o : Op} {next : Res o → Prog Op Res ε α} {s t u v : S} {r : Res o}
    {out : Except ε α} (waited : ReflTransGen others s t) (done : m.step o t r u)
    (later : Among m others (next r) u out v) : Among m others (.call o next) s out v

/-- What the program returns, whatever it is answered. -/
def Prog.Gives (P : α → Prop) : Prog Op Res ε α → Prop
  | .ret a => P a
  | .raise _ => True
  | .call _ next => ∀ r, (next r).Gives P

variable {m : Machine Op Res S} {others : S → S → Prop} {p : Prog Op Res ε α}
  {f : α → Prog Op Res ε β} {s t u : S} {a : α} {b : β} {out : Except ε β} {P : α → Prop}

/-- A sequence ends with its first program, or goes on with its second. -/
theorem Among.of_bind (h : Among m others (p >>= f) s out t) :
    (∃ e, out = .error e ∧ Among m others p s (.error e) t) ∨
      ∃ a u, Among m others p s (.ok a) u ∧ Among m others (f a) u out t := by
  induction p generalizing s with
  | ret a => exact .inr ⟨a, s, .ret a s, h⟩
  | raise e =>
    cases h with
    | raise => exact .inl ⟨e, rfl, .raise e _⟩
  | call o next ih =>
    cases h with
    | perform waited done later =>
      rcases ih _ later with ⟨e, hout, hfirst⟩ | ⟨a, u, hfirst, hrest⟩
      · exact .inl ⟨e, hout, .perform waited done hfirst⟩
      · exact .inr ⟨a, u, .perform waited done hfirst, hrest⟩

theorem Among.bind_eq_ok (h : Among m others (p >>= f) s (.ok b) t) :
    ∃ a u, Among m others p s (.ok a) u ∧ Among m others (f a) u (.ok b) t := by
  rcases h.of_bind with ⟨e, hout, _⟩ | hok
  · cases hout
  · exact hok

theorem Among.bind (hfirst : Among m others p s (.ok a) t) (hrest : Among m others (f a) t out u) :
    Among m others (p >>= f) s out u := by
  generalize hresult : Except.ok a = result at hfirst
  induction hfirst with
  | ret a' s =>
    obtain rfl := Except.ok.inj hresult
    exact hrest
  | raise e s => cases hresult
  | perform waited done later ih => exact .perform waited done (ih hrest hresult)

/-- What operations of its kind and the others keep, it keeps. -/
theorem Among.keeps {good : Op → Prop} (keep : S → S → Prop) (hrefl : ∀ s, keep s s)
    (htrans : ∀ s t u, keep s t → keep t u → keep s u)
    (hothers : ∀ s t, others s t → keep s t)
    (hstep : ∀ o s r t, good o → m.step o s r t → keep s t) (honly : p.Only good)
    {out : Except ε α} (h : Among m others p s out t) : keep s t := by
  have hwaited : ∀ {s t}, ReflTransGen others s t → keep s t := by
    intro s t hst
    induction hst with
    | refl => exact hrefl s
    | tail before change ih => exact htrans _ _ _ ih (hothers _ _ change)
  induction h with
  | ret a s => exact hrefl s
  | raise e s => exact hrefl s
  | perform waited done later ih =>
    have hfirst := htrans _ _ _ (hwaited waited) (hstep _ _ _ _ honly.1 done)
    exact htrans _ _ _ hfirst (ih (honly.2 _))

theorem Prog.Gives.returned (hp : p.Gives P) (h : Among m others p s (.ok a) t) : P a := by
  generalize hresult : Except.ok a = result at h
  induction h with
  | ret a' s =>
    obtain rfl := Except.ok.inj hresult
    exact hp
  | raise e s => cases hresult
  | perform waited done later ih => exact ih (hp _) hresult

theorem Prog.Gives.bind {Q : β → Prop} (hp : p.Gives P) (hf : ∀ a, P a → (f a).Gives Q) :
    (p >>= f).Gives Q := by
  induction p with
  | ret a => exact hf a hp
  | raise e => trivial
  | call o next ih => exact fun r => ih r (hp r)

theorem Prog.Gives.of_all (h : ∀ a, P a) (p : Prog Op Res ε α) : p.Gives P := by
  induction p with
  | ret a => exact h a
  | raise e => trivial
  | call o next ih => exact fun r => ih r

theorem Prog.Gives.embed {Op' : Type} {Res' : Op' → Type} {ε' : Type} {g : Op → Op'}
    {answer : (o : Op) → Res' (g o) → Res o} {error : ε → ε'} (hp : p.Gives P) :
    (p.embed g answer error).Gives P := by
  induction p with
  | ret a => exact hp
  | raise e => trivial
  | call o next ih => exact fun r => ih _ (hp _)

theorem Prog.Only.embed {Op' : Type} {Res' : Op' → Type} {ε' : Type} {good : Op' → Prop}
    {g : Op → Op'} {answer : (o : Op) → Res' (g o) → Res o} {error : ε → ε'}
    (hp : p.Only fun o => good (g o)) : (p.embed g answer error).Only good := by
  induction p with
  | ret a => trivial
  | raise e => trivial
  | call o next ih => exact ⟨hp.1, fun r => ih _ (hp.2 _)⟩

end Interrupted

end Interleaving
