import Mathlib

/-!
# Leases with fencing tokens

The version history of one lease record, newest version first. A grant needs an
expired newest version and takes the next token; a holder may renew or give back
the newest version under the token it was granted. What a token still stands for
is its own latest version, whatever has been granted since.
-/
namespace FencedLease

variable {H T : Type}

structure Version (H T : Type) where
  holder : Option H
  token : ℤ
  expires : T

section Changes

variable [LinearOrder T]

/-- The changes a record may go through by the time the clock shows `clock`, with the
token that was granted. -/
inductive Change (clock : T) :
    List (Version H T) → Option ℤ → List (Version H T) → Prop
  | create (version : Version H T) (unheld : version.holder = none) :
      Change clock [] none [version]
  | first (version : Version H T) : Change clock [] (some version.token) [version]
  | grant (version current : Version H T) (older : List (Version H T))
      (expired : current.expires ≤ clock) (next : version.token = current.token + 1) :
      Change clock (current :: older) (some version.token) (version :: current :: older)
  | rewrite (version current : Version H T) (older : List (Version H T))
      (same : version.token = current.token) :
      Change clock (current :: older) none (version :: current :: older)

/-- Tokens never fall along the history, and a version was expired before it was superseded
by a higher token. -/
def Superseded (clock : T) (newer older : Version H T) : Prop :=
  older.token ≤ newer.token ∧ (older.token < newer.token → older.expires ≤ clock)

/-- The history together with the tokens granted so far, oldest first. -/
structure Fenced (clock : T) (versions : List (Version H T)) (granted : List ℤ) : Prop where
  chain : versions.IsChain (Superseded clock)
  increasing : granted.Pairwise (· < ·)
  bounded : ∀ token ∈ granted, ∃ current, versions.head? = some current ∧ token ≤ current.token

/-- The holder whose token's latest version has not expired at a moment. -/
def Holds (versions : List (Version H T)) (holder : H) (moment : T) : Prop :=
  ∃ token version, versions.find? (fun v => v.token == token) = some version ∧
    version.holder = some holder ∧ moment < version.expires

theorem Fenced.empty (clock : T) : Fenced (H := H) clock [] [] :=
  ⟨List.isChain_nil, List.Pairwise.nil, by simp⟩

variable {clock clock' : T} {versions versions' : List (Version H T)} {granted : List ℤ}

theorem Fenced.later (h : Fenced clock versions granted) (hle : clock ≤ clock') :
    Fenced clock' versions granted := by
  refine ⟨h.chain.imp ?_, h.increasing, h.bounded⟩
  intro newer older hsuperseded
  exact ⟨hsuperseded.1, fun hlt => (hsuperseded.2 hlt).trans hle⟩

theorem Fenced.change {token : Option ℤ} (h : Fenced clock versions granted)
    (hchange : Change clock versions token versions') :
    Fenced clock versions' (granted ++ token.toList) := by
  cases hchange with
  | create version unheld =>
    refine ⟨List.isChain_singleton _, by simpa using h.increasing, ?_⟩
    intro old hold
    obtain ⟨current, hcurrent, -⟩ := h.bounded old (by simpa using hold)
    simp at hcurrent
  | first version =>
    have hnone : granted = [] := by
      apply List.eq_nil_iff_forall_not_mem.mpr
      intro old hold
      obtain ⟨current, hcurrent, -⟩ := h.bounded old hold
      simp at hcurrent
    subst hnone
    exact ⟨List.isChain_singleton _, by simp, by simp⟩
  | grant version current older expired next =>
    have hbelow : ∀ old ∈ granted, old ≤ current.token := by
      intro old hold
      obtain ⟨newest, hnewest, hle⟩ := h.bounded old hold
      simp only [List.head?_cons, Option.some.injEq] at hnewest
      rwa [← hnewest] at hle
    refine ⟨?_, ?_, ?_⟩
    · exact List.isChain_cons_cons.mpr ⟨⟨by omega, fun _ => expired⟩, h.chain⟩
    · simp only [Option.toList_some, List.pairwise_append, List.pairwise_singleton,
        List.mem_singleton, forall_eq, true_and]
      refine ⟨h.increasing, ?_⟩
      intro old hold
      have hle := hbelow old hold
      omega
    · intro old hold
      refine ⟨version, rfl, ?_⟩
      simp only [Option.toList_some, List.mem_append, List.mem_singleton] at hold
      rcases hold with hold | rfl
      · have hle := hbelow old hold
        omega
      · omega
  | rewrite version current older same =>
    refine ⟨?_, by simpa using h.increasing, ?_⟩
    · exact List.isChain_cons_cons.mpr ⟨⟨by omega, fun hlt => by omega⟩, h.chain⟩
    · intro old hold
      obtain ⟨newest, hnewest, hle⟩ := h.bounded old (by simpa using hold)
      simp only [List.head?_cons, Option.some.injEq] at hnewest
      subst hnewest
      exact ⟨version, rfl, by omega⟩

/-- The latest version of a superseded token has expired. -/
theorem expired_of_superseded {current version : Version H T} {older : List (Version H T)}
    {token : ℤ} (hchain : (current :: older).IsChain (Superseded clock))
    (hne : current.token ≠ token)
    (hfind : older.find? (fun v => v.token == token) = some version) :
    version.expires ≤ clock := by
  induction older generalizing current with
  | nil => simp at hfind
  | cons next rest ih =>
    obtain ⟨hsuperseded, hrest⟩ := List.isChain_cons_cons.mp hchain
    by_cases hnext : next.token = token
    · simp only [List.find?_cons, hnext, beq_self_eq_true, Option.some.injEq] at hfind
      subst hfind
      have hle := hsuperseded.1
      exact hsuperseded.2 (by omega)
    · have hskip : rest.find? (fun v => v.token == token) = some version := by
        simpa [List.find?_cons, hnext] using hfind
      exact ih hrest hnext hskip

/-- Only the newest version can be unexpired for its token. -/
theorem Fenced.holds_newest (h : Fenced clock versions granted) {holder : H} {moment : T}
    (hmoment : clock ≤ moment) (hholds : Holds versions holder moment) :
    ∃ current, versions.head? = some current ∧ current.holder = some holder := by
  obtain ⟨token, version, hfind, hholder, hlt⟩ := hholds
  cases versions with
  | nil => simp at hfind
  | cons current older =>
    by_cases hcurrent : current.token = token
    · simp only [List.find?_cons, hcurrent, beq_self_eq_true, Option.some.injEq] at hfind
      subst hfind
      exact ⟨current, rfl, hholder⟩
    · have hskip : older.find? (fun v => v.token == token) = some version := by
        simpa [List.find?_cons, hcurrent] using hfind
      have hexpired := expired_of_superseded h.chain hcurrent hskip
      exact absurd (hexpired.trans hmoment) (not_le.mpr hlt)

/-- At no moment do two holders have an unexpired lease. -/
theorem Fenced.holds_unique (h : Fenced clock versions granted) {holder other : H} {moment : T}
    (hmoment : clock ≤ moment) (hholder : Holds versions holder moment)
    (hother : Holds versions other moment) : holder = other := by
  obtain ⟨current, hcurrent, heq⟩ := h.holds_newest hmoment hholder
  obtain ⟨newest, hnewest, hne⟩ := h.holds_newest hmoment hother
  rw [hcurrent, Option.some.injEq] at hnewest
  subst hnewest
  rw [heq, Option.some.injEq] at hne
  exact hne

end Changes

end FencedLease
