import Mathlib.Data.List.Nodup
import Mathlib.Data.List.Perm.Subperm
import Mathlib.Order.Defs.Unbundled
import Mathlib.Tactic.Common

/-!
# Pages by key

A listing in the order of its keys is read page by page, each page from the last key of the one
before. Whatever keys come and go between the pages, a walk meets no key twice and misses none
that is there for every page, and every page but the last one moves on.
-/
namespace KeysetPages

variable {K : Type} {le : K → K → Prop} {present : K → Prop} {after next : Option K}
  {keys all : List K}

/-- The key comes after the one a page starts from. -/
def After (le : K → K → Prop) (after : Option K) (key : K) : Prop :=
  ∀ last, after = some last → ¬ le key last

/-- One page of the keys that are present: those after a key, up to the one to go on from. -/
structure IsPage (le : K → K → Prop) (present : K → Prop) (after : Option K) (keys : List K)
    (next : Option K) : Prop where
  sorted : keys.Pairwise fun first second => ¬ le second first
  ahead : ∀ key ∈ keys, After le after key
  covers : ∀ key, present key → After le after key → (∀ last, next = some last → le key last) →
    key ∈ keys
  last : ∀ last, next = some last → keys.getLast? = some last

/-- The first keys of a sorted listing. -/
theorem isPage_take [Std.Antisymm le] {n : ℕ} (hsorted : all.Pairwise le) (hnodup : all.Nodup)
    (hmem : ∀ key, key ∈ all ↔ present key ∧ After le after key)
    (hnext : ∀ last, next = some last → (all.take n).getLast? = some last)
    (hend : next = none → all.length ≤ n) : IsPage le present after (all.take n) next := by
  have hstrict : all.Pairwise fun first second => ¬ le second first := by
    have hboth := List.pairwise_and_iff.mpr ⟨hsorted, hnodup⟩
    exact hboth.imp fun hpair hback => hpair.2 (antisymm_of le hpair.1 hback)
  refine ⟨hstrict.sublist (List.take_sublist _ _), ?_, ?_, hnext⟩
  · intro key hkey
    exact ((hmem key).mp (List.mem_of_mem_take hkey)).2
  · intro key hpresent hafter hupto
    have hkey := (hmem key).mpr ⟨hpresent, hafter⟩
    cases hlast : next with
    | none =>
      rw [List.take_of_length_le (hend hlast)]
      exact hkey
    | some last =>
      have hle := hupto last hlast
      have hmemLast := List.mem_of_getLast? (hnext last hlast)
      rw [← List.take_append_drop n all, List.mem_append] at hkey
      rcases hkey with hfirst | hrest
      · exact hfirst
      · rw [← List.take_append_drop n all, List.pairwise_append] at hstrict
        exact absurd hle (hstrict.2.2 last hmemLast key hrest)

theorem IsPage.of_fewer {fewer : K → Prop} (h : IsPage le present after keys next)
    (hfewer : ∀ key, fewer key → present key) : IsPage le fewer after keys next :=
  ⟨h.sorted, h.ahead, fun key hkey => h.covers key (hfewer key hkey), h.last⟩

/-- A page as it was read: the keys that were present, those on it, and where it leads. -/
structure Page (K : Type) where
  present : K → Prop
  keys : List K
  next : Option K

/-- Pages read one after the other, each from the key the one before leads to. -/
inductive Walk (le : K → K → Prop) : Option K → List (Page K) → Prop
  | last {after : Option K} {page : Page K}
    (read : IsPage le page.present after page.keys page.next) : Walk le after [page]
  | more {after : Option K} {page : Page K} {last : K} {rest : List (Page K)}
    (read : IsPage le page.present after page.keys page.next) (next : page.next = some last)
    (later : Walk le (some last) rest) : Walk le after (page :: rest)

variable {pages : List (Page K)}

def walked (pages : List (Page K)) : List K := pages.flatMap Page.keys

/-- What comes after the last key of a page comes after all of it, and after where it began. -/
theorem IsPage.after_next [IsTrans K le] [Std.Total le] {last key : K}
    (h : IsPage le present after keys (some last)) (hkey : After le (some last) key) :
    After le after key ∧ ∀ earlier ∈ keys, ¬ le key earlier := by
  have hnot : ¬ le key last := hkey last rfl
  have hlast := h.last last rfl
  have hmem := List.mem_of_getLast? hlast
  have hupto : ∀ earlier ∈ keys, le earlier last := by
    intro earlier hearlier
    obtain ⟨init, rfl⟩ := List.getLast?_eq_some_iff.mp hlast
    rw [List.mem_append, List.mem_singleton] at hearlier
    rcases hearlier with hinit | rfl
    · have hsorted := List.pairwise_append.mp h.sorted
      exact (total_of le earlier last).resolve_right
        (hsorted.2.2 earlier hinit last (List.mem_singleton_self last))
    · exact (total_of le earlier earlier).elim id id
  constructor
  · intro start hstart hback
    have hforward := h.ahead last hmem start hstart
    exact hnot (trans_of le hback ((total_of le start last).resolve_right hforward))
  · intro earlier hearlier hback
    exact hnot (trans_of le hback (hupto earlier hearlier))

theorem Walk.ahead [IsTrans K le] [Std.Total le] (h : Walk le after pages) :
    ∀ key ∈ walked pages, After le after key := by
  induction h with
  | last read =>
    intro key hkey
    exact read.ahead key (by simpa [walked] using hkey)
  | more read next later ih =>
    intro key hkey
    rcases List.mem_append.mp hkey with hfirst | hrest
    · exact read.ahead key hfirst
    · rw [next] at read
      exact (read.after_next (ih key hrest)).1

/-- A walk goes up in the order of the keys. -/
theorem Walk.sorted [IsTrans K le] [Std.Total le] (h : Walk le after pages) :
    (walked pages).Pairwise fun first second => ¬ le second first := by
  induction h with
  | last read => simpa [walked] using read.sorted
  | @more after page last rest read next later ih =>
    show (page.keys ++ walked rest).Pairwise _
    rw [List.pairwise_append]
    refine ⟨read.sorted, ih, ?_⟩
    intro earlier hearlier key hkey
    rw [next] at read
    exact (read.after_next (later.ahead key hkey)).2 earlier hearlier

/-- No key is met twice. -/
theorem Walk.nodup [IsTrans K le] [Std.Total le] (h : Walk le after pages) :
    (walked pages).Nodup :=
  h.sorted.imp fun hnot heq => by
    subst heq
    exact hnot ((total_of le _ _).elim id id)

/-- A key that is there for every page of a walk to the end is met. -/
theorem Walk.covers (h : Walk le after pages)
    (hend : ∀ page, pages.getLast? = some page → page.next = none) {key : K}
    (hafter : After le after key) (hpresent : ∀ page ∈ pages, page.present key) :
    key ∈ walked pages := by
  induction h with
  | @last after page read =>
    have hnone := hend page rfl
    have hkey := read.covers key (hpresent page (List.mem_singleton_self page)) hafter
      (by simp [hnone])
    simpa [walked] using hkey
  | @more after page last rest read next later ih =>
    show key ∈ page.keys ++ walked rest
    rw [List.mem_append]
    by_cases hupto : le key last
    · left
      apply read.covers key (hpresent page List.mem_cons_self) hafter
      intro other hother
      rw [next] at hother
      obtain rfl := Option.some.inj hother
      exact hupto
    · right
      have hrest : rest ≠ [] := by
        rintro rfl
        cases later
      apply ih
      · intro lastPage hlast
        apply hend
        rw [List.getLast?_cons, hlast]
        rfl
      · intro other hother
        obtain rfl := Option.some.inj hother
        exact hupto
      · intro other hother
        exact hpresent other (List.mem_cons_of_mem _ hother)

/-- Every page but the last one has a key. -/
theorem Walk.length_le (h : Walk le after pages) : pages.length ≤ (walked pages).length + 1 := by
  induction h with
  | last read => simp
  | @more after page last rest read next later ih =>
    have hlast := read.last last next
    have hpage : 1 ≤ page.keys.length := List.length_pos_of_mem (List.mem_of_getLast? hlast)
    have hlength : (walked (page :: rest)).length = page.keys.length + (walked rest).length := by
      simp [walked]
    rw [List.length_cons, hlength]
    omega

end KeysetPages
