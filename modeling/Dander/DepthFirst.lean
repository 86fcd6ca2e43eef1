import Mathlib.Logic.Relation
import Mathlib.Data.List.Chain
import Mathlib.Data.List.Nodup
import Mathlib.Data.List.Infix
import Mathlib.Tactic.Common

/-!
# Depth-first search with three marks

A vertex is white until it is entered, grey while it is on the path and black
once everything it points to has been finished. Vertices are finished after all
they point to; an edge back onto the path closes a cycle. The depth bounds the
recursion: a list that contains every vertex is deep enough.
-/
namespace DepthFirst

inductive Mark
  | white
  | grey
  | black
  deriving DecidableEq, Repr

inductive Failure (α : Type*)
  | cycle (walk : List α)
  | outOfDepth
  deriving DecidableEq, Repr

structure Search (α : Type*) where
  mark : α → Mark
  path : List α
  order : List α

section Definitions

variable {α : Type*} [DecidableEq α]

def Search.start : Search α := ⟨fun _ => .white, [], []⟩

def Search.enter (s : Search α) (a : α) : Search α :=
  ⟨Function.update s.mark a .grey, s.path ++ [a], s.order⟩

def Search.leave (s : Search α) (a : α) : Search α :=
  ⟨Function.update s.mark a .black, s.path.dropLast, s.order ++ [a]⟩

/-- The part of the path an edge back to one of its vertices closes. -/
def Search.closing (s : Search α) (b : α) : List α :=
  s.path.drop (s.path.idxOf b) ++ [b]

def reach (visit : α → Search α → Except (Failure α) (Search α)) (s : Search α) (b : α) :
    Except (Failure α) (Search α) :=
  match s.mark b with
  | .white => visit b s
  | .grey => .error (.cycle (s.closing b))
  | .black => .ok s

def visit (successors : α → List α) :
    ℕ → α → Search α → Except (Failure α) (Search α)
  | 0, _, _ => .error .outOfDepth
  | depth + 1, a, s =>
    ((successors a).foldlM (reach (visit successors depth)) (s.enter a)).map (·.leave a)

/-- A walk along the edges that ends where it began and repeats nothing else. -/
structure ClosedWalk (successors : α → List α) (walk : List α) : Prop where
  chain : walk.IsChain fun a b => b ∈ successors a
  returns : ∃ a rest, walk = a :: rest ++ [a] ∧ (a :: rest).Nodup

/-- What holds between two steps of a search among the vertices `P`. -/
structure Search.Sound (successors : α → List α) (P : α → Prop) (s : Search α) : Prop where
  grey : ∀ a, s.mark a = .grey ↔ a ∈ s.path
  black : ∀ a, s.mark a = .black ↔ a ∈ s.order
  nodup_path : s.path.Nodup
  nodup_order : s.order.Nodup
  chain : s.path.IsChain fun a b => b ∈ successors a
  finished : ∀ earlier a later, s.order = earlier ++ a :: later →
    ∀ b ∈ successors a, b ∈ earlier
  path_within : ∀ a ∈ s.path, P a
  order_within : ∀ a ∈ s.order, P a

/-- One state continues another: more is finished, and the path is as it was. -/
structure Continues (successors : α → List α) (P : α → Prop) (s s' : Search α) : Prop where
  sound : s'.Sound successors P
  path : s'.path = s.path
  order : s.order <+: s'.order

def Search.whites (s : Search α) (vertices : List α) : ℕ :=
  vertices.countP fun a => s.mark a = .white

end Definitions

section Marks

variable {α : Type*} {successors : α → List α} {P : α → Prop} {s s' : Search α}

theorem Search.Sound.start : (Search.start : Search α).Sound successors P where
  grey a := by simp [Search.start]
  black a := by simp [Search.start]
  nodup_path := List.nodup_nil
  nodup_order := List.nodup_nil
  chain := List.isChain_nil
  finished earlier a later h := by simp [Search.start] at h
  path_within a ha := by simp [Search.start] at ha
  order_within a ha := by simp [Search.start] at ha

theorem Search.Sound.white (hs : s.Sound successors P) (a : α) :
    s.mark a = .white ↔ a ∉ s.path ∧ a ∉ s.order := by
  rw [← hs.grey, ← hs.black]
  cases s.mark a <;> simp

theorem Continues.refl (hs : s.Sound successors P) : Continues successors P s s :=
  ⟨hs, rfl, List.prefix_refl _⟩

theorem Continues.trans {s'' : Search α} (h : Continues successors P s s')
    (h' : Continues successors P s' s'') : Continues successors P s s'' :=
  ⟨h'.sound, h'.path.trans h.path, h.order.trans h'.order⟩

theorem Continues.whites_le (hs : s.Sound successors P) (h : Continues successors P s s')
    (vertices : List α) : s'.whites vertices ≤ s.whites vertices := by
  apply List.countP_mono_left
  intro a _ ha
  have hwhite : s'.mark a = .white := by simpa using ha
  obtain ⟨hpath, horder⟩ := (h.sound.white a).mp hwhite
  have : s.mark a = .white :=
    (hs.white a).mpr ⟨by rwa [← h.path], fun hin => horder (h.order.subset hin)⟩
  simpa using this

end Marks

section Steps

variable {α : Type*} [DecidableEq α] {successors : α → List α} {P : α → Prop} {s s' : Search α}
  {a b : α}

theorem Search.whites_enter {vertices : List α} (ha : a ∈ vertices)
    (hwhite : s.mark a = .white) : (s.enter a).whites vertices < s.whites vertices := by
  have hle : ∀ rest : List α, (s.enter a).whites rest ≤ s.whites rest := by
    intro rest
    apply List.countP_mono_left
    intro b _ hb
    by_cases hba : b = a
    · subst hba
      simp [Search.enter] at hb
    · simpa [Search.enter, Function.update_of_ne hba] using hb
  obtain ⟨before, after, rfl⟩ := List.append_of_mem ha
  have hbefore := hle before
  have hafter := hle after
  simp only [Search.whites, List.countP_append, List.countP_cons] at hbefore hafter ⊢
  simp only [Search.enter, Function.update_self, hwhite] at hbefore hafter ⊢
  simp only [reduceCtorEq, decide_false, Bool.false_eq_true, if_false, decide_true, if_true]
  omega

theorem Search.Sound.enter (hs : s.Sound successors P) (hwhite : s.mark a = .white) (ha : P a)
    (hlink : ∀ x ∈ s.path.getLast?, a ∈ successors x) : (s.enter a).Sound successors P := by
  obtain ⟨hpath, horder⟩ := (hs.white a).mp hwhite
  constructor
  · intro x
    by_cases hx : x = a
    · subst hx
      simp [Search.enter]
    · simp [Search.enter, hs.grey, hx]
  · intro x
    by_cases hx : x = a
    · subst hx
      simp [Search.enter, horder]
    · simp [Search.enter, Function.update_of_ne hx, hs.black]
  · simpa [Search.enter, List.nodup_append] using ⟨hs.nodup_path, fun x hx hxa => hpath (hxa ▸ hx)⟩
  · exact hs.nodup_order
  · refine List.IsChain.append hs.chain (List.isChain_singleton a) ?_
    intro x hx y hy
    simp only [List.head?_cons, Option.mem_def, Option.some.injEq] at hy
    subst hy
    exact hlink x hx
  · exact hs.finished
  · intro x hx
    rcases List.mem_append.mp hx with hx | hx
    · exact hs.path_within x hx
    · rw [List.mem_singleton.mp hx]
      exact ha
  · exact hs.order_within

/-- Leaving a vertex that was entered, once all it points to is finished. -/
theorem Search.Sound.leave (hs : s.Sound successors P) (hwhite : s.mark a = .white) (ha : P a)
    (h : Continues successors P (s.enter a) s') (hall : ∀ b ∈ successors a, b ∈ s'.order) :
    Continues successors P s (s'.leave a) ∧ a ∈ (s'.leave a).order := by
  have hs' := h.sound
  have hpath : s'.path = s.path ++ [a] := h.path
  have hnotpath : a ∉ s.path := ((hs.white a).mp hwhite).1
  have hgrey : s'.mark a = .grey := (hs'.grey a).mpr (by simp [hpath])
  have hnotorder : a ∉ s'.order := fun hin => by
    rw [(hs'.black a).mpr hin] at hgrey
    cases hgrey
  have hdrop : (s'.leave a).path = s.path := by simp [Search.leave, hpath]
  refine ⟨⟨?_, hdrop, h.order.trans (List.prefix_append _ _)⟩, by simp [Search.leave]⟩
  constructor
  · intro x
    rw [hdrop]
    by_cases hx : x = a
    · subst hx
      simp [Search.leave, hnotpath]
    · simp [Search.leave, hs'.grey, hpath, hx]
  · intro x
    by_cases hx : x = a
    · subst hx
      simp [Search.leave]
    · simp [Search.leave, hs'.black, hx]
  · rw [hdrop]
    exact hs.nodup_path
  · have : ∀ x ∈ s'.order, x ≠ a := fun x hx hxa => hnotorder (hxa ▸ hx)
    simpa [Search.leave, List.nodup_append] using ⟨hs'.nodup_order, this⟩
  · rw [hdrop]
    exact hs.chain
  · intro earlier x later hsplit y hy
    have hsplit : s'.order ++ [a] = earlier ++ x :: later := hsplit
    rcases List.eq_nil_or_concat later with rfl | ⟨front, z, rfl⟩
    · obtain ⟨rfl, hxa⟩ := List.append_inj' hsplit rfl
      obtain rfl : a = x := by simpa using hxa
      exact hall y hy
    · rw [List.concat_eq_append, ← List.cons_append, ← List.append_assoc] at hsplit
      exact hs'.finished earlier x front (List.append_inj' hsplit rfl).1 y hy
  · rw [hdrop]
    exact hs.path_within
  · intro x hx
    rcases List.mem_append.mp hx with hx | hx
    · exact hs'.order_within x hx
    · rw [List.mem_singleton.mp hx]
      exact ha

/-- An edge from the end of the path back onto it closes a walk. -/
theorem Search.Sound.closing (hs : s.Sound successors P) (hgrey : s.mark b = .grey)
    (hlink : ∀ x ∈ s.path.getLast?, b ∈ successors x) :
    ClosedWalk successors (s.closing b) ∧ ∀ x ∈ s.closing b, P x := by
  have hb : b ∈ s.path := (hs.grey b).mp hgrey
  have hlt := List.idxOf_lt_length_of_mem hb
  have hsplit : s.path.drop (s.path.idxOf b) = b :: s.path.drop (s.path.idxOf b + 1) := by
    rw [List.drop_eq_getElem_cons hlt, List.getElem_idxOf]
  have hsuffix : s.path.drop (s.path.idxOf b) <:+ s.path := List.drop_suffix _ _
  refine ⟨⟨?_, b, _, by rw [Search.closing, hsplit], ?_⟩, ?_⟩
  · refine List.IsChain.append (hs.chain.drop _) (List.isChain_singleton b) ?_
    intro x hx y hy
    simp only [List.head?_cons, Option.mem_def, Option.some.injEq] at hy
    subst hy
    apply hlink x
    rw [List.getLast?_drop, if_neg (by omega)] at hx
    exact hx
  · rw [← hsplit]
    exact hs.nodup_path.sublist hsuffix.sublist
  · intro x hx
    rcases List.mem_append.mp hx with hx | hx
    · exact hs.path_within x (hsuffix.subset hx)
    · rw [List.mem_singleton.mp hx]
      exact hs.path_within b hb

end Steps

section Runs

variable {α : Type*} [DecidableEq α] {successors : α → List α} {P : α → Prop}

/-- How a step of the search ends: further on, or at a walk that returns. -/
def Outcome (successors : α → List α) (P : α → Prop) (s : Search α) (reached : List α)
    (result : Except (Failure α) (Search α)) : Prop :=
  (∃ s', result = .ok s' ∧ Continues successors P s s' ∧ ∀ b ∈ reached, b ∈ s'.order) ∨
    ∃ walk, result = .error (.cycle walk) ∧ ClosedWalk successors walk ∧ ∀ x ∈ walk, P x

omit [DecidableEq α] in
/-- The loop over the vertices one vertex points to, or over the roots: what
holds of each of its steps holds of all of them. -/
theorem explore_spec {step : Search α → α → Except (Failure α) (Search α)} {targets : List α}
    (vertices path : List α) (bound : ℕ)
    (hstep : ∀ s : Search α, s.Sound successors P → s.path = path →
      s.whites vertices ≤ bound → ∀ b ∈ targets, Outcome successors P s [b] (step s b))
    {s : Search α} (hs : s.Sound successors P) (hpath : s.path = path)
    (hbound : s.whites vertices ≤ bound) :
    Outcome successors P s targets (targets.foldlM step s) := by
  induction targets generalizing s with
  | nil => exact .inl ⟨s, rfl, .refl hs, by simp⟩
  | cons b rest ih =>
    rw [List.foldlM_cons]
    rcases hstep s hs hpath hbound b (by simp) with ⟨s₁, hok, hnext, hb⟩ | ⟨walk, herror, hwalk⟩
    · have hrest := ih (fun s hs hp hw c hc => hstep s hs hp hw c (List.mem_cons_of_mem _ hc))
        hnext.sound (hnext.path.trans hpath) ((hnext.whites_le hs vertices).trans hbound)
      rw [hok]
      rcases hrest with ⟨s₂, hok₂, hnext₂, hall⟩ | hcycle
      · refine .inl ⟨s₂, hok₂, hnext.trans hnext₂, ?_⟩
        intro c hc
        rcases List.mem_cons.mp hc with rfl | hc
        · exact hnext₂.order.subset (hb c (by simp))
        · exact hall c hc
      · exact .inr hcycle
    · rw [herror]
      exact .inr ⟨walk, rfl, hwalk⟩

theorem reach_spec {next : α → Search α → Except (Failure α) (Search α)} {s : Search α} {b : α}
    (hs : s.Sound successors P) (hlink : ∀ x ∈ s.path.getLast?, b ∈ successors x)
    (hnext : s.mark b = .white → Outcome successors P s [b] (next b s)) :
    Outcome successors P s [b] (reach next s b) := by
  unfold reach
  cases hmark : s.mark b with
  | white => exact hnext hmark
  | grey => exact .inr ⟨_, rfl, hs.closing hmark hlink⟩
  | black =>
    have hb : b ∈ s.order := (hs.black b).mp hmark
    exact .inl ⟨s, rfl, .refl hs, by simpa using hb⟩

/-- Entering a white vertex either finishes it, with all it leads to, or closes
a walk: a list of all vertices is deep enough. -/
theorem visit_spec (hclosed : ∀ a, P a → ∀ b ∈ successors a, P b) {vertices : List α}
    (hvertices : ∀ a, P a → a ∈ vertices) (depth : ℕ) (a : α) (s : Search α)
    (hs : s.Sound successors P) (hwhite : s.mark a = .white) (ha : P a)
    (hlink : ∀ x ∈ s.path.getLast?, a ∈ successors x) (hdepth : s.whites vertices ≤ depth) :
    Outcome successors P s [a] (visit successors depth a s) := by
  induction depth generalizing a s with
  | zero =>
    have := Search.whites_enter (hvertices a ha) hwhite
    omega
  | succ depth ih =>
    have henter := hs.enter hwhite ha hlink
    have hfewer := Search.whites_enter (hvertices a ha) hwhite
    have hloop : Outcome successors P (s.enter a) (successors a)
        ((successors a).foldlM (reach (visit successors depth)) (s.enter a)) := by
      apply explore_spec vertices (s.path ++ [a]) depth ?_ henter rfl (by omega)
      intro t ht hpath hbound b hb
      have hlast : ∀ x ∈ t.path.getLast?, b ∈ successors x := by
        intro x hx
        rw [hpath] at hx
        obtain rfl : a = x := by simpa using hx
        exact hb
      apply reach_spec ht hlast
      intro hmark
      exact ih b t ht hmark (hclosed a ha b hb) hlast hbound
    unfold visit
    rcases hloop with ⟨t, hok, hnext, hall⟩ | ⟨walk, herror, hwalk⟩
    · obtain ⟨hdone, hin⟩ := hs.leave hwhite ha hnext hall
      refine .inl ⟨t.leave a, ?_, hdone, by simpa using hin⟩
      rw [hok]
      rfl
    · refine .inr ⟨walk, ?_, hwalk⟩
      rw [herror]
      rfl

/-- A search from roots among `P`: all of them are finished, or a walk returns. -/
theorem search_spec (hclosed : ∀ a, P a → ∀ b ∈ successors a, P b) {vertices roots : List α}
    (hvertices : ∀ a, P a → a ∈ vertices) (hroots : ∀ a ∈ roots, P a) {depth : ℕ}
    (hdepth : vertices.length ≤ depth) :
    Outcome successors P .start roots
      (roots.foldlM (reach (visit successors depth)) Search.start) := by
  apply explore_spec vertices [] depth ?_ .start rfl (List.countP_le_length.trans hdepth)
  intro s hs hpath hbound b hb
  have hlink : ∀ x ∈ s.path.getLast?, b ∈ successors x := by simp [hpath]
  apply reach_spec hs hlink
  intro hmark
  exact visit_spec hclosed hvertices depth b s hs hmark (hroots b hb) hlink hbound

end Runs

section Orders

variable {α : Type*} [DecidableEq α] {successors : α → List α} {P : α → Prop} {s : Search α}

omit [DecidableEq α] in
theorem Search.Sound.mem_of_edge (hs : s.Sound successors P) {a b : α} (ha : a ∈ s.order)
    (hb : b ∈ successors a) : b ∈ s.order := by
  obtain ⟨earlier, later, hsplit⟩ := List.append_of_mem ha
  have := hs.finished earlier a later hsplit b hb
  rw [hsplit]
  exact List.mem_append_left _ this

/-- What a vertex points to is finished before it. -/
theorem Search.Sound.idxOf_lt (hs : s.Sound successors P) {a b : α} (ha : a ∈ s.order)
    (hb : b ∈ successors a) : s.order.idxOf b < s.order.idxOf a := by
  obtain ⟨earlier, later, hsplit⟩ := List.append_of_mem ha
  have hin := hs.finished earlier a later hsplit b hb
  have hnodup := hs.nodup_order
  rw [hsplit] at hnodup ⊢
  have hnot : a ∉ earlier := fun h =>
    (List.disjoint_of_nodup_append hnodup) h (by simp)
  rw [List.idxOf_append_of_mem hin, List.idxOf_append_of_notMem hnot, List.idxOf_cons_self]
  have := List.idxOf_lt_length_of_mem hin
  omega

omit [DecidableEq α] in
theorem Search.Sound.mem_of_reaches (hs : s.Sound successors P) {a b : α} (ha : a ∈ s.order)
    (h : Relation.ReflTransGen (fun a b => b ∈ successors a) a b) : b ∈ s.order := by
  induction h with
  | refl => exact ha
  | tail _ hb ih => exact hs.mem_of_edge ih hb

theorem Search.Sound.idxOf_lt_of_reaches (hs : s.Sound successors P) {a b : α}
    (ha : a ∈ s.order) (h : Relation.TransGen (fun a b => b ∈ successors a) a b) :
    s.order.idxOf b < s.order.idxOf a := by
  induction h with
  | single hb => exact hs.idxOf_lt ha hb
  | tail hto hb ih => exact (hs.idxOf_lt (hs.mem_of_reaches ha hto.to_reflTransGen) hb).trans ih

theorem Search.Sound.acyclic (hs : s.Sound successors P) {a : α} (ha : a ∈ s.order) :
    ¬ Relation.TransGen (fun a b => b ∈ successors a) a a := fun h =>
  (hs.idxOf_lt_of_reaches ha h).false

omit [DecidableEq α] in
theorem transGen_of_isChain {R : α → α → Prop} {a b : α} {rest : List α}
    (h : (a :: rest ++ [b]).IsChain R) : Relation.TransGen R a b := by
  induction rest generalizing a with
  | nil => exact .single (List.isChain_pair.mp h)
  | cons c rest ih =>
    obtain ⟨hac, hrest⟩ := List.isChain_cons_cons.mp h
    exact .head hac (ih hrest)

omit [DecidableEq α] in
/-- A closed walk starts at a vertex that leads back to itself. -/
theorem ClosedWalk.returns_to {walk : List α} (h : ClosedWalk successors walk) :
    ∃ a ∈ walk, Relation.TransGen (fun a b => b ∈ successors a) a a := by
  obtain ⟨a, rest, rfl, _⟩ := h.returns
  exact ⟨a, by simp, transGen_of_isChain h.chain⟩

end Orders
end DepthFirst
