import Dander.KeysetPages
import Dander.Orchestration
import Mathlib.Logic.Relation

/-!
# Listing the runs of a store

A caller reads a page, and goes on from the cursor it was handed, while others work on the store
before, between and, where a page takes several operations, during the pages.
-/
namespace Dander.RunListings

open KeysetPages (IsPage Walk walked)
open Orchestration (RunStoreError)
open Relation (ReflTransGen)

section Statement

structure ListedPage (R : Type) where
  items : List R
  nextCursor : Option String
  deriving Repr, DecidableEq

/-- A run store as its readers and writers meet it. -/
structure ListedStore (S R : Type) where
  initial : S
  /-- What others do to the store. -/
  changes : S → S → Prop
  /-- What a page is answered with, and the store at its end. -/
  lists : Option String → ℤ → S → Except RunStoreError (ListedPage R) → S → Prop
  runId : R → String
  /-- The runs that are stored. -/
  runs : S → List String
  /-- The runs that belong to the listing. -/
  listed : S → String → Prop
  accepts : String → Prop
  /-- All that is stored can be read. -/
  intact : S → Prop

variable {S R : Type} (store : ListedStore S R)

structure Visit (S R : Type) where
  before : S
  page : ListedPage R
  after : S

/-- Pages read one after the other from a state of the store, each from the cursor handed out
with the one before it. -/
inductive Follows (store : ListedStore S R) : Option String → S → List (Visit S R) → Prop
  | last {cursor : Option String} {s : S} {visit : Visit S R} (limit : ℤ)
    (waited : ReflTransGen store.changes s visit.before)
    (read : store.lists cursor limit visit.before (.ok visit.page) visit.after) :
    Follows store cursor s [visit]
  | more {cursor : Option String} {s : S} {visit : Visit S R} {text : String}
    {rest : List (Visit S R)} (limit : ℤ) (waited : ReflTransGen store.changes s visit.before)
    (read : store.lists cursor limit visit.before (.ok visit.page) visit.after)
    (next : visit.page.nextCursor = some text)
    (later : Follows store (some text) visit.after rest) : Follows store cursor s (visit :: rest)

def pageIds (page : ListedPage R) : List String := page.items.map store.runId

/-- The runs that the pages returned. -/
def returned (visits : List (Visit S R)) : List String :=
  visits.flatMap fun visit => pageIds store visit.page

/-- No page is left to read. -/
def Ended (visits : List (Visit S R)) : Prop :=
  ∀ visit, visits.getLast? = some visit → visit.page.nextCursor = none

/-- What a caller that follows the cursors can rely on. -/
structure ListsEachRunOnce : Prop where
  once : ∀ visits, Follows store none store.initial visits → (returned store visits).Nodup
  complete : ∀ visits run, Follows store none store.initial visits → Ended visits →
    (∀ visit ∈ visits, store.listed visit.before run) → (returned store visits).count run = 1
  ends : ∀ visits visit, Follows store none store.initial visits →
    visits.getLast? = some visit → visits.length ≤ (store.runs visit.after).length + 1
  accepted : ∀ visits visit text, Follows store none store.initial visits → visit ∈ visits →
    visit.page.nextCursor = some text → store.accepts text
  answered : ∀ s cursor limit, ReflTransGen store.changes store.initial s → store.intact s →
    (∀ text, cursor = some text → store.accepts text) → 1 ≤ limit → limit ≤ 100 →
    ∃ page, store.lists cursor limit s (.ok page) s

end Statement

section Rules

variable {S R : Type} {store : ListedStore S R} {le : String → String → Prop} {inv : S → Prop}
  {position : String → Option String}

/-- How a store keeps it: its runs are listed in the order of a key, and a cursor stands for the
last run of its page. -/
structure PagesByKey (store : ListedStore S R) (le : String → String → Prop) (inv : S → Prop)
    (position : String → Option String) : Prop where
  initial : inv store.initial
  kept : ∀ s t, inv s → store.changes s t → inv t ∧ store.runs s ⊆ store.runs t
  page : ∀ cursor limit s page t, inv s → store.lists cursor limit s (.ok page) t →
    inv t ∧ store.runs s ⊆ store.runs t ∧ pageIds store page ⊆ store.runs t ∧
      IsPage le (store.listed s) (cursor.bind position) (pageIds store page)
        (page.nextCursor.bind position) ∧
      ∀ text, page.nextCursor = some text → store.accepts text ∧ (position text).isSome

theorem PagesByKey.kept_all (h : PagesByKey store le inv position) {s t : S} (hs : inv s)
    (waited : ReflTransGen store.changes s t) : inv t ∧ store.runs s ⊆ store.runs t := by
  induction waited with
  | refl => exact ⟨hs, List.Subset.refl _⟩
  | tail before change ih =>
    obtain ⟨hinv, hsub⟩ := ih
    have hnext := h.kept _ _ hinv change
    exact ⟨hnext.1, List.Subset.trans hsub hnext.2⟩

/-- A visit as a page of its keys. -/
def keyPage (store : ListedStore S R) (position : String → Option String) (visit : Visit S R) :
    KeysetPages.Page String :=
  ⟨store.listed visit.before, pageIds store visit.page, visit.page.nextCursor.bind position⟩

theorem walked_map (visits : List (Visit S R)) :
    walked (visits.map (keyPage store position)) = returned store visits := by
  simp [walked, returned, List.flatMap_map, keyPage]

/-- The pages a caller reads are a walk, and hand out cursors that are accepted. -/
theorem PagesByKey.walk (h : PagesByKey store le inv position) {cursor : Option String} {s : S}
    {visits : List (Visit S R)} (follows : Follows store cursor s visits) (hs : inv s) :
    Walk le (cursor.bind position) (visits.map (keyPage store position)) ∧
      ∀ visit ∈ visits, ∀ text, visit.page.nextCursor = some text → store.accepts text := by
  induction follows with
  | @last cursor s visit limit waited read =>
    obtain ⟨-, -, -, hpage, hnext⟩ := h.page _ _ _ _ _ (h.kept_all hs waited).1 read
    constructor
    · exact .last hpage
    · intro other hother text htext
      obtain rfl := List.mem_singleton.mp hother
      exact (hnext text htext).1
  | @more cursor s visit text rest limit waited read next later ih =>
    obtain ⟨hinv, -, -, hpage, hnext⟩ := h.page _ _ _ _ _ (h.kept_all hs waited).1 read
    obtain ⟨hwalk, haccepted⟩ := ih hinv
    obtain ⟨last, hlast⟩ := Option.isSome_iff_exists.mp (hnext text next).2
    have hkey : visit.page.nextCursor.bind position = some last := by simp [next, hlast]
    have hstart : (some text).bind position = some last := by simp [hlast]
    rw [hstart] at hwalk
    constructor
    · exact .more hpage hkey hwalk
    · intro other hother other_text htext
      rcases List.mem_cons.mp hother with rfl | hrest
      · exact (hnext other_text htext).1
      · exact haccepted other hrest other_text htext

/-- What the pages returned is stored at the end. -/
theorem PagesByKey.returned_subset (h : PagesByKey store le inv position)
    {cursor : Option String} {s : S} {visits : List (Visit S R)}
    (follows : Follows store cursor s visits) (hs : inv s) {visit : Visit S R}
    (hlast : visits.getLast? = some visit) :
    inv visit.after ∧ store.runs s ⊆ store.runs visit.after ∧
      returned store visits ⊆ store.runs visit.after := by
  induction follows with
  | @last cursor s first limit waited read =>
    obtain rfl := Option.some.inj hlast
    obtain ⟨hinv, hsub⟩ := h.kept_all hs waited
    obtain ⟨hinv', hsub', hids, -, -⟩ := h.page _ _ _ _ _ hinv read
    refine ⟨hinv', List.Subset.trans hsub hsub', ?_⟩
    simpa [returned] using hids
  | @more cursor s first text rest limit waited read next later ih =>
    obtain ⟨hinv, hsub⟩ := h.kept_all hs waited
    obtain ⟨hinv', hsub', hids, -, -⟩ := h.page _ _ _ _ _ hinv read
    have hrest : rest.getLast? = some visit := by
      cases later with
      | last => simpa using hlast
      | more => simpa using hlast
    obtain ⟨hfinal, hgrown, hreturned⟩ := ih hinv' hrest
    refine ⟨hfinal, List.Subset.trans (List.Subset.trans hsub hsub') hgrown, ?_⟩
    have hfirst : returned store (first :: rest) =
        pageIds store first.page ++ returned store rest := by simp [returned]
    rw [hfirst]
    exact List.append_subset.mpr ⟨List.Subset.trans hids hgrown, hreturned⟩

/-- A store with such pages, that answers when it is left alone, lists each run once. -/
theorem PagesByKey.listsEachRunOnce [Std.Total le] [IsTrans String le]
    (h : PagesByKey store le inv position)
    (answered : ∀ s cursor limit, inv s → store.intact s →
      (∀ text, cursor = some text → store.accepts text) → 1 ≤ limit → limit ≤ 100 →
      ∃ page, store.lists cursor limit s (.ok page) s) : ListsEachRunOnce store := by
  have honce : ∀ visits, Follows store none store.initial visits →
      (returned store visits).Nodup := by
    intro visits follows
    have hwalk := (h.walk follows h.initial).1
    simpa only [walked_map] using hwalk.nodup
  constructor
  · exact honce
  · intro visits run follows ended hlisted
    have hwalk := (h.walk follows h.initial).1
    apply List.count_eq_one_of_mem (honce visits follows)
    rw [← @walked_map S R store position]
    apply hwalk.covers
    · intro page hpage
      rw [List.getLast?_map, Option.map_eq_some_iff] at hpage
      obtain ⟨visit, hvisit, rfl⟩ := hpage
      simp [keyPage, ended visit hvisit]
    · intro last hnone
      cases hnone
    · intro page hpage
      obtain ⟨visit, hvisit, rfl⟩ := List.mem_map.mp hpage
      exact hlisted visit hvisit
  · intro visits visit follows hlast
    have hlength := (h.walk follows h.initial).1.length_le
    rw [walked_map, List.length_map] at hlength
    obtain ⟨-, -, hsub⟩ := h.returned_subset follows h.initial hlast
    have hcount := ((honce visits follows).subperm hsub).length_le
    omega
  · intro visits visit text follows hvisit htext
    exact (h.walk follows h.initial).2 visit hvisit text htext
  · intro s cursor limit reached hintact haccepts hpositive hbound
    exact answered s cursor limit (h.kept_all h.initial reached).1 hintact haccepts hpositive
      hbound

end Rules

end Dander.RunListings
