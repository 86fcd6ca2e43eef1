import Dander.Concurrency
import Mathlib.Data.List.Infix
import Mathlib.Data.List.TakeWhile

/-!
# The references a template declares

`parse_refs` finds names by a regular expression for one form of call,
`\{\{\s*ref\s*\(\s*(['"])(.*?)\1\s*\)\s*\}\}`, and lists each of them once. Where all
it finds are identifiers, it has found every call that is written in that form.
-/
namespace Dander.Transform

open Concurrency (isSegment)

/-- `['"]`. -/
def isQuote (c : Char) : Bool := c == '\'' || c == '"'

/-- `\s*` and a literal that does not begin with a space. -/
def afterLiteral (literal text : List Char) : Option (List Char) :=
  (text.dropWhile isSpace).dropPrefix? literal

/-- `\1\s*\)\s*\}\}`. -/
def afterClosing (quote : Char) (text : List Char) : Option (List Char) := do
  let text ← text.dropPrefix? [quote]
  let text ← afterLiteral [')'] text
  afterLiteral ['}', '}'] text

/-- `(.*?)`, up to the first place where the call closes. -/
def nameBefore (quote : Char) : List Char → Option (List Char × List Char)
  | [] => none
  | c :: text =>
    match afterClosing quote (c :: text) with
    | some rest => some ([], rest)
    | none =>
      if c = '\n' then none
      else (nameBefore quote text).map fun found => (c :: found.1, found.2)

/-- `\s*(['"])(.*?)\1\s*\)\s*\}\}`. -/
def quotedName (text : List Char) : Option (List Char × List Char) :=
  match text.dropWhile isSpace with
  | quote :: text => if isQuote quote then nameBefore quote text else none
  | [] => none

/-- The name of the call the text begins with, and what follows the call. -/
def refAt (text : List Char) : Option (List Char × List Char) := do
  let text ← text.dropPrefix? ['{', '{']
  let text ← afterLiteral ['r', 'e', 'f'] text
  let text ← afterLiteral ['('] text
  quotedName text

/-- `finditer`: a match begins where at most `left` characters are left, those
after the match before it. -/
def findRefs (left : ℕ) : List Char → List (List Char)
  | [] => []
  | c :: text =>
    if text.length < left then
      match refAt (c :: text) with
      | some (name, rest) => name :: findRefs rest.length text
      | none => findRefs left text
    else findRefs left text

def parseRefs (sql : String) : List String :=
  ((findRefs sql.toList.length sql.toList).map String.ofList).eraseDups

/-- The spaces and the quote of one call in the documented form. -/
structure CallForm where
  opening : List Char
  callee : List Char
  parenthesis : List Char
  closing : List Char
  last : List Char
  quote : Char
  quoted : isQuote quote = true
  spaces : ∀ gap ∈ [opening, callee, parenthesis, closing, last], ∀ c ∈ gap, isSpace c = true

namespace CallForm

variable (form : CallForm)

/-- What follows the two opening braces. -/
def body (name : List Char) : List Char :=
  form.opening ++ (['r', 'e', 'f'] ++ (form.callee ++ (['('] ++ (form.parenthesis ++
    (form.quote :: (name ++ (form.quote :: (form.closing ++ ([')'] ++ (form.last ++
      ['}', '}']))))))))))

/-- `{{ ref('name') }}`. -/
def text (name : List Char) : List Char := ['{', '{'] ++ form.body name

end CallForm

/-- The template writes a call with this name in the documented form. -/
def Written (sql name : String) : Prop :=
  ∃ (form : CallForm) (before after : List Char),
    sql.toList = before ++ form.text name.toList ++ after

section Matching

theorem not_isSpace_of_mem {c : Char} (h : c ∈ ['{', '}', 'r', '(', ')', '\'', '"']) :
    isSpace c = false := by
  have hall : ['{', '}', 'r', '(', ')', '\'', '"'].all (fun c => !isSpace c) = true := by decide
  simpa using List.all_eq_true.mp hall c h

theorem isQuote_eq {c : Char} : isQuote c = true ↔ c = '\'' ∨ c = '"' := by
  simp [isQuote]

theorem not_isSpace_of_isQuote {c : Char} (h : isQuote c = true) : isSpace c = false := by
  rcases isQuote_eq.mp h with rfl | rfl <;> rfl

theorem dropWhile_spaces {spaces rest : List Char} {c : Char}
    (hspaces : ∀ d ∈ spaces, isSpace d = true) (hc : isSpace c = false) :
    (spaces ++ c :: rest).dropWhile isSpace = c :: rest := by
  rw [List.dropWhile_append_of_pos hspaces]
  exact List.dropWhile_cons_of_neg (by simp [hc])

theorem afterLiteral_eq_some {literal text rest : List Char}
    (h : afterLiteral literal text = some rest) :
    ∃ spaces : List Char, (∀ c ∈ spaces, isSpace c = true) ∧
      text = spaces ++ (literal ++ rest) := by
  refine ⟨text.takeWhile isSpace, fun c hc => List.mem_takeWhile_imp hc, ?_⟩
  obtain ⟨found, hfound, hsame⟩ := List.dropPrefix?_eq_some_iff.mp h
  rw [← eq_of_beq hsame, ← hfound, List.takeWhile_append_dropWhile]

theorem afterLiteral_append (literal rest : List Char) {spaces : List Char} {c : Char}
    (hspaces : ∀ d ∈ spaces, isSpace d = true) (hc : isSpace c = false) :
    afterLiteral (c :: literal) (spaces ++ (c :: literal ++ rest)) = some rest := by
  unfold afterLiteral
  rw [List.cons_append, dropWhile_spaces hspaces hc, ← List.cons_append]
  exact List.dropPrefix?_append_of_beq rest BEq.rfl

theorem afterClosing_eq_some {quote : Char} {text rest : List Char}
    (h : afterClosing quote text = some rest) :
    ∃ closing last : List Char, (∀ c ∈ closing, isSpace c = true) ∧
      (∀ c ∈ last, isSpace c = true) ∧
      text = quote :: (closing ++ ([')'] ++ (last ++ (['}', '}'] ++ rest)))) := by
  unfold afterClosing at h
  obtain ⟨text₁, hquote, h⟩ := Option.bind_eq_some_iff.mp h
  obtain ⟨text₂, hclosing, hlast⟩ := Option.bind_eq_some_iff.mp h
  obtain ⟨found, rfl, hsame⟩ := List.dropPrefix?_eq_some_iff.mp hquote
  obtain ⟨closing, hclosed, rfl⟩ := afterLiteral_eq_some hclosing
  obtain ⟨last, hends, rfl⟩ := afterLiteral_eq_some hlast
  refine ⟨closing, last, hclosed, hends, ?_⟩
  rw [eq_of_beq hsame, List.singleton_append]

theorem afterClosing_append (quote : Char) (rest : List Char) {closing last : List Char}
    (hclosing : ∀ c ∈ closing, isSpace c = true) (hlast : ∀ c ∈ last, isSpace c = true) :
    afterClosing quote (quote :: (closing ++ ([')'] ++ (last ++ (['}', '}'] ++ rest))))) =
      some rest := by
  have hquote : (quote :: (closing ++ ([')'] ++ (last ++ (['}', '}'] ++ rest))))).dropPrefix?
      [quote] = some (closing ++ ([')'] ++ (last ++ (['}', '}'] ++ rest)))) :=
    List.dropPrefix?_append_of_beq _ (BEq.rfl : [quote] == [quote])
  have hparenthesis := afterLiteral_append [] (last ++ (['}', '}'] ++ rest)) hclosing
    (not_isSpace_of_mem (c := ')') (by decide))
  have hbraces := afterLiteral_append ['}'] rest hlast (not_isSpace_of_mem (c := '}') (by decide))
  simp only [afterClosing, hquote, Option.bind_eq_bind, Option.bind_some]
  rw [hparenthesis]
  exact hbraces

theorem nameBefore_eq_some {quote : Char} {text name rest : List Char}
    (h : nameBefore quote text = some (name, rest)) :
    ∃ closing last : List Char, (∀ c ∈ closing, isSpace c = true) ∧
      (∀ c ∈ last, isSpace c = true) ∧
      text = name ++ quote :: (closing ++ ([')'] ++ (last ++ (['}', '}'] ++ rest)))) := by
  induction text generalizing name with
  | nil => cases h
  | cons c text ih =>
    unfold nameBefore at h
    split at h
    next found hfound =>
      cases h
      exact afterClosing_eq_some hfound
    next =>
      split at h
      · cases h
      · obtain ⟨⟨later, rest'⟩, hlater, hsame⟩ := Option.map_eq_some_iff.mp h
        cases hsame
        obtain ⟨closing, last, hclosing, hlast, rfl⟩ := ih hlater
        exact ⟨closing, last, hclosing, hlast, by simp⟩

theorem nameBefore_append (rest : List Char) {quote : Char} {name closing last : List Char}
    (hclosing : ∀ c ∈ closing, isSpace c = true) (hlast : ∀ c ∈ last, isSpace c = true)
    (hname : quote ∉ name) (hline : '\n' ∉ name) :
    nameBefore quote
        (name ++ quote :: (closing ++ ([')'] ++ (last ++ (['}', '}'] ++ rest))))) =
      some (name, rest) := by
  induction name with
  | nil =>
    have hclosed := afterClosing_append quote rest hclosing hlast
    simp only [List.nil_append, nameBefore, hclosed]
  | cons c name ih =>
    simp only [List.mem_cons, not_or] at hname hline
    have hopen : afterClosing quote
        (c :: (name ++ quote :: (closing ++ ([')'] ++ (last ++ (['}', '}'] ++ rest)))))) =
          none := by
      cases hfound : afterClosing quote
          (c :: (name ++ quote :: (closing ++ ([')'] ++ (last ++ (['}', '}'] ++ rest)))))) with
      | none => rfl
      | some found =>
        obtain ⟨_, _, _, _, htext⟩ := afterClosing_eq_some hfound
        exact absurd (List.cons.inj htext).1.symm hname.1
    rw [List.cons_append]
    simp only [nameBefore, hopen, if_neg (Ne.symm hline.1), ih hname.2 hline.2, Option.map_some]

theorem quotedName_eq_some {text name rest : List Char}
    (h : quotedName text = some (name, rest)) :
    ∃ (quote : Char) (parenthesis text' : List Char), isQuote quote = true ∧
      (∀ c ∈ parenthesis, isSpace c = true) ∧ text = parenthesis ++ quote :: text' ∧
        nameBefore quote text' = some (name, rest) := by
  unfold quotedName at h
  split at h
  next quote text' htext =>
    split at h
    next hquoted =>
      refine ⟨quote, text.takeWhile isSpace, text', hquoted,
        fun c hc => List.mem_takeWhile_imp hc, ?_, h⟩
      rw [← htext, List.takeWhile_append_dropWhile]
    next => cases h
  next => cases h

theorem refAt_eq_some {text name rest : List Char} (h : refAt text = some (name, rest)) :
    ∃ form : CallForm, text = form.text name ++ rest := by
  unfold refAt at h
  obtain ⟨text₁, hbraces, h₁⟩ := Option.bind_eq_some_iff.mp h
  obtain ⟨text₂, hcallee, h₂⟩ := Option.bind_eq_some_iff.mp h₁
  obtain ⟨text₃, hparenthesis, h₃⟩ := Option.bind_eq_some_iff.mp h₂
  clear h h₁ h₂
  obtain ⟨found, rfl, hsame⟩ := List.dropPrefix?_eq_some_iff.mp hbraces
  rw [eq_of_beq hsame]
  clear hbraces
  obtain ⟨opening, hopening, rfl⟩ := afterLiteral_eq_some hcallee
  obtain ⟨callee, hcalled, rfl⟩ := afterLiteral_eq_some hparenthesis
  obtain ⟨quote, parenthesis, text', hquoted, hspaces, rfl, hname⟩ := quotedName_eq_some h₃
  obtain ⟨closing, last, hclosing, hlast, rfl⟩ := nameBefore_eq_some hname
  refine ⟨⟨opening, callee, parenthesis, closing, last, quote, hquoted, ?_⟩, ?_⟩
  · intro gap hgap
    simp only [List.mem_cons, List.not_mem_nil, or_false] at hgap
    rcases hgap with rfl | rfl | rfl | rfl | rfl <;> assumption
  · simp [CallForm.text, CallForm.body]

theorem refAt_text (form : CallForm) {name : List Char} (rest : List Char)
    (hname : form.quote ∉ name) (hline : '\n' ∉ name) :
    refAt (form.text name ++ rest) = some (name, rest) := by
  obtain ⟨opening, callee, parenthesis, closing, last, quote, hquoted, hspaces⟩ := form
  simp only [List.forall_mem_cons, List.not_mem_nil, false_implies, implies_true, and_true]
    at hspaces
  obtain ⟨hopening, hcallee, hparenthesis, hclosing, hlast⟩ := hspaces
  have hbefore := nameBefore_append rest hclosing hlast hname hline
  generalize htext₄ : name ++ quote :: (closing ++ ([')'] ++ (last ++ (['}', '}'] ++ rest)))) =
    text₄ at hbefore
  have hquote : quotedName (parenthesis ++ quote :: text₄) = some (name, rest) := by
    unfold quotedName
    rw [dropWhile_spaces hparenthesis (not_isSpace_of_isQuote hquoted)]
    simp only [hquoted, if_true, hbefore]
  have hopen := afterLiteral_append [] (parenthesis ++ quote :: text₄)
    hcallee (not_isSpace_of_mem (c := '(') (by decide))
  have hcalled := afterLiteral_append ['e', 'f']
    (callee ++ (['('] ++ (parenthesis ++ quote :: text₄))) hopening
    (not_isSpace_of_mem (c := 'r') (by decide))
  have hbraces := List.dropPrefix?_append_of_beq
    (opening ++ (['r', 'e', 'f'] ++ (callee ++ (['('] ++ (parenthesis ++ quote :: text₄)))))
    (BEq.rfl : ['{', '{'] == ['{', '{'])
  have htext : CallForm.text ⟨opening, callee, parenthesis, closing, last, quote, hquoted,
      by simpa using ⟨hopening, hcallee, hparenthesis, hclosing, hlast⟩⟩ name ++ rest =
        ['{', '{'] ++ (opening ++ (['r', 'e', 'f'] ++ (callee ++ (['('] ++
          (parenthesis ++ quote :: text₄))))) := by
    rw [← htext₄]
    simp [CallForm.text, CallForm.body]
  rw [htext, refAt, hbraces]
  simp only [Option.bind_eq_bind, Option.bind_some]
  rw [hcalled, Option.bind_some, hopen, Option.bind_some, hquote]

end Matching

section Searching

variable {text rest name : List Char} {left : ℕ}

theorem exists_of_mem_findRefs (h : name ∈ findRefs left text) :
    ∃ (form : CallForm) (before after : List Char), text = before ++ form.text name ++ after := by
  induction text generalizing left with
  | nil => cases h
  | cons c text ih =>
    have hlater : ∀ left, name ∈ findRefs left text →
        ∃ (form : CallForm) (before after : List Char),
          c :: text = before ++ form.text name ++ after := by
      intro left hmem
      obtain ⟨form, before, after, rfl⟩ := ih hmem
      exact ⟨form, c :: before, after, rfl⟩
    unfold findRefs at h
    split at h
    · split at h
      next found rest hfound =>
        rcases List.mem_cons.mp h with rfl | hmem
        · obtain ⟨form, htext⟩ := refAt_eq_some hfound
          exact ⟨form, [], rest, htext⟩
        · exact hlater _ hmem
      next => exact hlater _ h
    · exact hlater _ h

theorem CallForm.brace_not_mem_body (form : CallForm) (hname : '{' ∉ name) :
    '{' ∉ form.body name := by
  have hspaces : ∀ gap ∈ [form.opening, form.callee, form.parenthesis, form.closing, form.last],
      '{' ∉ gap := by
    intro gap hgap hmem
    have := form.spaces gap hgap '{' hmem
    revert this
    decide
  have hquote : '{' ≠ form.quote := by
    intro h
    have := form.quoted
    rw [← h] at this
    revert this
    decide
  simp only [List.forall_mem_cons, List.not_mem_nil, false_implies, implies_true, and_true]
    at hspaces
  simp [CallForm.body, hspaces, hquote, hname]

/-- Two braces in a row that are not the first two characters come after what has
no braces. -/
theorem length_le_of_braces {body before more : List Char} {c : Char} (hbody : '{' ∉ body)
    (hne : body ≠ []) (h : '{' :: '{' :: (body ++ rest) = c :: (before ++ '{' :: '{' :: more)) :
    ('{' :: '{' :: more).length ≤ rest.length := by
  obtain ⟨-, h⟩ := List.cons.inj h
  cases before with
  | nil =>
    obtain ⟨-, h⟩ := List.cons.inj h
    obtain ⟨first, others, rfl⟩ := List.exists_cons_of_ne_nil hne
    obtain ⟨rfl, -⟩ := List.cons.inj h
    simp at hbody
  | cons d before =>
    obtain ⟨-, h⟩ := List.cons.inj h
    rcases List.append_eq_append_iff.mp h with ⟨within, -, hrest⟩ | ⟨within, hwithin, hmore⟩
    · rw [hrest]
      simp
    · cases within with
      | nil => simp_all
      | cons e within =>
        obtain ⟨rfl, -⟩ := List.cons.inj hmore
        rw [hwithin] at hbody
        simp at hbody

/-- A search that finds no name with a brace passes over no call. -/
theorem mem_findRefs {form : CallForm} {before after : List Char}
    (hfound : ∀ found ∈ findRefs left text, '{' ∉ found)
    (htext : text = before ++ form.text name ++ after)
    (hleft : (form.text name ++ after).length ≤ left)
    (hname : form.quote ∉ name) (hline : '\n' ∉ name) : name ∈ findRefs left text := by
  induction text generalizing before left with
  | nil => simp [CallForm.text] at htext
  | cons c text ih =>
    unfold findRefs at hfound ⊢
    cases before with
    | nil =>
      have hcall : refAt (c :: text) = some (name, after) := by
        rw [htext, List.nil_append]
        exact refAt_text form after hname hline
      have hlt : text.length < left := by
        rw [List.nil_append] at htext
        rw [← htext, List.length_cons] at hleft
        omega
      simp only [if_pos hlt, hcall, List.mem_cons, true_or]
    | cons d before =>
      obtain ⟨rfl, hrest⟩ := List.cons.inj htext
      by_cases hlt : text.length < left
      · simp only [if_pos hlt] at hfound ⊢
        cases hcall : refAt (c :: text) with
        | none =>
          simp only [hcall] at hfound ⊢
          exact ih hfound hrest hleft
        | some found =>
          obtain ⟨other, rest⟩ := found
          simp only [hcall] at hfound ⊢
          obtain ⟨hbrace, hlater⟩ := List.forall_mem_cons.mp hfound
          obtain ⟨otherForm, hother⟩ := refAt_eq_some hcall
          have hbody := otherForm.brace_not_mem_body hbrace
          have hlength : (form.text name ++ after).length ≤ rest.length := by
            have hsame : '{' :: '{' :: (otherForm.body other ++ rest) =
                c :: (before ++ '{' :: '{' :: (form.body name ++ after)) := by
              rw [htext] at hother
              simpa [CallForm.text] using hother.symm
            exact length_le_of_braces hbody (by simp [CallForm.body]) hsame
          exact List.mem_cons_of_mem _ (ih hlater hrest hlength)
      · simp only [if_neg hlt] at hfound ⊢
        exact ih hfound hrest hleft

end Searching

/-- An identifier has no character that means something to the search. -/
theorem not_mem_of_isSegment {name : List Char} (h : isSegment (fun _ => false) name = true)
    {c : Char} (hc : c ∈ ['{', '\n', '\'', '"']) : c ∉ name := by
  have hall : ['{', '\n', '\'', '"'].all (fun c => !(Concurrency.isLetter c || c = '_') &&
      !(isAlphanumeric c || c = '_' || false)) = true := by decide
  obtain ⟨hfirst, hrest⟩ : (Concurrency.isLetter c || c = '_') = false ∧
      (isAlphanumeric c || c = '_' || false) = false := by
    simpa only [Bool.and_eq_true, Bool.not_eq_true'] using List.all_eq_true.mp hall c hc
  cases name with
  | nil => simp
  | cons first rest =>
    simp only [isSegment, Bool.and_eq_true, List.all_eq_true] at h
    intro hmem
    rcases List.mem_cons.mp hmem with rfl | hmem
    · simp [hfirst] at h
    · simpa [hrest] using h.2 c hmem

theorem mem_parseRefs {sql name : String} :
    name ∈ parseRefs sql ↔ name.toList ∈ findRefs sql.toList.length sql.toList := by
  simp only [parseRefs, List.mem_eraseDups, List.mem_map]
  constructor
  · rintro ⟨found, hfound, rfl⟩
    simpa using hfound
  · intro h
    exact ⟨name.toList, h, by simp⟩

/-- What is found is written, and an identifier that is written is found. -/
theorem mem_parseRefs_iff {sql name : String}
    (hrefs : ∀ found ∈ parseRefs sql, isSegment (fun _ => false) found.toList = true)
    (hname : isSegment (fun _ => false) name.toList = true) :
    name ∈ parseRefs sql ↔ Written sql name := by
  rw [mem_parseRefs]
  constructor
  · exact exists_of_mem_findRefs
  · rintro ⟨form, before, after, hsql⟩
    have hbraces : ∀ found ∈ findRefs sql.toList.length sql.toList, '{' ∉ found := by
      intro found hfound
      have hmem : String.ofList found ∈ parseRefs sql := mem_parseRefs.mpr (by simpa using hfound)
      have := hrefs _ hmem
      exact not_mem_of_isSegment (by simpa using this) (by decide)
    apply mem_findRefs hbraces hsql
    · rw [hsql]
      simp
    · rcases isQuote_eq.mp form.quoted with h | h <;> rw [h] <;>
        exact not_mem_of_isSegment hname (by decide)
    · exact not_mem_of_isSegment hname (by decide)

end Dander.Transform
