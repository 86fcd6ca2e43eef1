import Dander.Execution
import Dander.ScheduleExpression
import Mathlib.Data.List.Induction

/-!
# The language of five-field cron expressions

The grammar and the meaning of schedules, stated apart from the parser. The parser accepts
exactly the texts of the grammar, and the sets it computes are what their terms denote.
-/
namespace Dander.Schedule

section Grammar

/-- Decimal numerals; leading zeros are allowed. -/
inductive Numeral : List Char → ℕ → Prop
  | digit (d : ℕ) (small : d < 10) : Numeral [d.digitChar] d
  | more {text : List Char} {n : ℕ} (d : ℕ) (small : d < 10) (first : Numeral text n) :
      Numeral (text ++ [d.digitChar]) (10 * n + d)

inductive Base where
  | star
  | single (n : ℕ)
  | range (a b : ℕ)
  deriving Repr, DecidableEq

inductive Base.Spelled : Base → List Char → Prop
  | star : Spelled .star ['*']
  | single {text : List Char} {n : ℕ} (numeral : Numeral text n) : Spelled (.single n) text
  | range {first last : List Char} {a b : ℕ} (start : Numeral first a) (stop : Numeral last b) :
      Spelled (.range a b) (first ++ '-' :: last)

structure Term where
  base : Base
  step : Option ℕ
  deriving Repr, DecidableEq

inductive Term.Spelled : Term → List Char → Prop
  | plain {base : Base} {text : List Char} (spelled : base.Spelled text) :
      Spelled ⟨base, none⟩ text
  | stepped {base : Base} {text last : List Char} {s : ℕ} (spelled : base.Spelled text)
      (numeral : Numeral last s) : Spelled ⟨base, some s⟩ (text ++ '/' :: last)

/-- The least and the greatest value of a field. -/
structure Bounds where
  minimum : ℕ
  maximum : ℕ
  deriving Repr, DecidableEq

/-- A base within the bounds of its field. -/
def Base.Within (bounds : Bounds) : Base → Prop
  | .star => True
  | .single n => bounds.minimum ≤ n ∧ n ≤ bounds.maximum
  | .range a b => bounds.minimum ≤ a ∧ a ≤ b ∧ b ≤ bounds.maximum

def Term.Within (bounds : Bounds) (term : Term) : Prop :=
  term.base.Within bounds ∧ ∀ s ∈ term.step, 1 ≤ s ∧ s ≤ bounds.maximum - bounds.minimum + 1

/-- The values of a term: every value of its base, or every so many from the first one on. A
single value with a step runs to the maximum. -/
def Term.Denotes (bounds : Bounds) : Term → ℕ → Prop
  | ⟨.star, step⟩, v =>
    bounds.minimum ≤ v ∧ v ≤ bounds.maximum ∧ step.getD 1 ∣ v - bounds.minimum
  | ⟨.single n, none⟩, v => v = n
  | ⟨.single n, some s⟩, v => n ≤ v ∧ v ≤ bounds.maximum ∧ s ∣ v - n
  | ⟨.range a b, step⟩, v => a ≤ v ∧ v ≤ b ∧ step.getD 1 ∣ v - a

/-- A comma list of terms within the bounds of the field. -/
def FieldSpelled (bounds : Bounds) (terms : List Term) (text : List Char) : Prop :=
  terms ≠ [] ∧ ∃ texts, text = [','].intercalate texts ∧
    List.Forall₂ (fun term text => term.Spelled text ∧ term.Within bounds) terms texts

def FieldDenotes (bounds : Bounds) (terms : List Term) (v : ℕ) : Prop :=
  ∃ term ∈ terms, term.Denotes bounds v

def minuteBounds : Bounds := ⟨0, 59⟩
def hourBounds : Bounds := ⟨0, 23⟩
def dayOfMonthBounds : Bounds := ⟨1, 31⟩
def monthBounds : Bounds := ⟨1, 12⟩
def dayOfWeekBounds : Bounds := ⟨0, 7⟩

structure CronSchedule where
  minute : List Term
  hour : List Term
  dayOfMonth : List Term
  month : List Term
  dayOfWeek : List Term
  deriving Repr, DecidableEq

/-- Five fields, separated by single spaces, in at most 256 characters. -/
def CronSchedule.Spelled (schedule : CronSchedule) (expression : String) : Prop :=
  expression.toList.length ≤ 256 ∧ ∃ minute hour dayOfMonth month dayOfWeek,
    expression.toList = [' '].intercalate [minute, hour, dayOfMonth, month, dayOfWeek] ∧
    FieldSpelled minuteBounds schedule.minute minute ∧
    FieldSpelled hourBounds schedule.hour hour ∧
    FieldSpelled dayOfMonthBounds schedule.dayOfMonth dayOfMonth ∧
    FieldSpelled monthBounds schedule.month month ∧
    FieldSpelled dayOfWeekBounds schedule.dayOfWeek dayOfWeek

/-- Sunday is 0 and 7. -/
def CronSchedule.DayOfWeekDenotes (schedule : CronSchedule) (v : ℕ) : Prop :=
  ∃ u, FieldDenotes dayOfWeekBounds schedule.dayOfWeek u ∧ v = if u = 7 then 0 else u

/-- A field that is written as one star. -/
def isStar (terms : List Term) : Bool := decide (terms = [⟨.star, none⟩])

/-- The local minutes of a schedule. Two restricted day fields are alternatives. -/
def CronSchedule.Selects (schedule : CronSchedule) (time : LocalTime) : Prop :=
  let monthDay := FieldDenotes dayOfMonthBounds schedule.dayOfMonth time.day
  let weekDay := schedule.DayOfWeekDenotes ((time.weekday + 1) % 7)
  FieldDenotes minuteBounds schedule.minute time.minute ∧
    FieldDenotes hourBounds schedule.hour time.hour ∧
    FieldDenotes monthBounds schedule.month time.month ∧
    if !isStar schedule.dayOfMonth && !isStar schedule.dayOfWeek then monthDay ∨ weekDay
    else monthDay ∧ weekDay

end Grammar

section Numerals

theorem digitChar_toNat {d : ℕ} (small : d < 10) : d.digitChar.toNat = 48 + d := by
  have hall : ∀ d < 10, (Nat.digitChar d).toNat = 48 + d := by decide
  exact hall d small

/-- The characters between `0` and `9`. -/
def isDigit (c : Char) : Bool := 48 ≤ c.toNat && c.toNat ≤ 57

theorem isDigit_digitChar {d : ℕ} (small : d < 10) : isDigit d.digitChar = true := by
  have hvalue := digitChar_toNat small
  simp only [isDigit, hvalue, Bool.and_eq_true, decide_eq_true_eq]
  omega

theorem digitChar_of_isDigit {c : Char} (h : isDigit c = true) :
    c.toNat - 48 < 10 ∧ c = (c.toNat - 48).digitChar := by
  simp only [isDigit, Bool.and_eq_true, decide_eq_true_eq] at h
  have hsmall : c.toNat - 48 < 10 := by omega
  have hvalue := digitChar_toNat hsmall
  refine ⟨hsmall, Char.toNat_inj.mp ?_⟩
  rw [hvalue]
  omega

theorem intOf_append (text : List Char) (c : Char) :
    intOf (text ++ [c]) = 10 * intOf text + (c.toNat - 48) := by
  simp [intOf, List.foldl_append]

theorem isInteger_iff {text : List Char} :
    isInteger text = true ↔ text ≠ [] ∧ ∀ c ∈ text, isDigit c = true := by
  unfold isInteger
  rw [Bool.and_eq_true, List.all_eq_true]
  simp [isDigit]

theorem Numeral.digits {text : List Char} {n : ℕ} (h : Numeral text n) :
    text ≠ [] ∧ ∀ c ∈ text, isDigit c = true := by
  induction h with
  | digit d small => simpa using isDigit_digitChar small
  | @more text n d small first ih =>
    constructor
    · simp
    · intro c hc
      rcases List.mem_append.mp hc with hfirst | hlast
      · exact ih.2 c hfirst
      · obtain rfl := List.mem_singleton.mp hlast
        exact isDigit_digitChar small

theorem Numeral.intOf_eq {text : List Char} {n : ℕ} (h : Numeral text n) : intOf text = n := by
  induction h with
  | digit d small =>
    have hvalue := digitChar_toNat small
    simp only [intOf, List.foldl_cons, List.foldl_nil, hvalue]
    omega
  | more d small first ih =>
    have hvalue := digitChar_toNat small
    rw [intOf_append, ih, hvalue]
    omega

theorem numeral_of_digits {text : List Char} (hne : text ≠ [])
    (hdigits : ∀ c ∈ text, isDigit c = true) : Numeral text (intOf text) := by
  induction text using List.reverseRecOn with
  | nil => exact absurd rfl hne
  | append_singleton first c ih =>
    obtain ⟨hsmall, hc⟩ := digitChar_of_isDigit (hdigits c (by simp))
    have hdigit : intOf (first ++ [c]) = 10 * intOf first + (c.toNat - 48) := intOf_append first c
    by_cases hfirst : first = []
    · subst hfirst
      have hsingle := Numeral.digit (c.toNat - 48) hsmall
      rw [← hc] at hsingle
      simpa [intOf] using hsingle
    · have hrest := ih hfirst (fun d hd => hdigits d (by simp [hd]))
      have hmore := Numeral.more (c.toNat - 48) hsmall hrest
      rw [← hc] at hmore
      rw [hdigit]
      exact hmore

theorem isInteger_iff_numeral {text : List Char} :
    isInteger text = true ↔ Numeral text (intOf text) := by
  rw [isInteger_iff]
  constructor
  · rintro ⟨hne, hdigits⟩
    exact numeral_of_digits hne hdigits
  · intro h
    exact h.digits

end Numerals

section Splitting

variable {α : Type} [DecidableEq α]

/-- Two parts with no separator in the first. -/
theorem splitOn_pair {separator : α} {first last : List α} (hfirst : separator ∉ first)
    (hlast : separator ∉ last) :
    (first ++ separator :: last).splitOn separator = [first, last] := by
  rw [List.splitOn_append_cons_self_of_not_mem hfirst, List.splitOn_eq_singleton hlast]

/-- A text that splits in two is its parts around one separator. -/
theorem eq_of_splitOn_pair {separator : α} {text first last : List α}
    (h : text.splitOn separator = [first, last]) : text = first ++ separator :: last := by
  have hjoin : [separator].intercalate (text.splitOn separator) = text :=
    List.intercalate_splitOn separator
  rw [h, List.intercalate_cons_cons, List.intercalate_singleton] at hjoin
  simpa using hjoin.symm

theorem eq_of_splitOn_single {separator : α} {text part : List α}
    (h : text.splitOn separator = [part]) : text = part := by
  have hjoin : [separator].intercalate (text.splitOn separator) = text :=
    List.intercalate_splitOn separator
  rw [h, List.intercalate_singleton] at hjoin
  exact hjoin.symm

end Splitting

section Terms

theorem Numeral.not_mem {text : List Char} {n : ℕ} (h : Numeral text n) {c : Char}
    (hc : isDigit c = false) : c ∉ text := by
  intro hmem
  rw [h.digits.2 c hmem] at hc
  cases hc

variable {minimum maximum : ℕ} {label : String} {text : List Char}

/-- The first and the last value of a base. -/
def Base.interval (bounds : Bounds) (extendSingle : Bool) : Base → ℕ × ℕ
  | .star => (bounds.minimum, bounds.maximum)
  | .single n => (n, if extendSingle then bounds.maximum else n)
  | .range a b => (a, b)

theorem fieldRange_sound {extendSingle : Bool} {interval : ℕ × ℕ}
    (h : fieldRange text minimum maximum label extendSingle = .ok interval) :
    ∃ base : Base, base.Spelled text ∧ base.Within ⟨minimum, maximum⟩ ∧
      interval = base.interval ⟨minimum, maximum⟩ extendSingle := by
  unfold fieldRange at h
  by_cases hstar : text = ['*']
  · rw [if_pos hstar] at h
    subst hstar
    exact ⟨.star, .star, trivial, (Except.ok.inj h).symm⟩
  · rw [if_neg hstar] at h
    cases hsplit : text.splitOn '-' with
    | nil => exact absurd hsplit (List.splitOn_ne_nil _ _)
    | cons first rest =>
      simp only [hsplit] at h
      obtain ⟨hbounds, h⟩ := Execution.guard_eq_ok h
      obtain ⟨hrange, h⟩ := Execution.guard_eq_ok h
      obtain rfl := Except.ok.inj h
      simp only [Bool.or_eq_true, decide_eq_true_eq, List.any_eq_true, not_or, not_exists,
        not_and, Bool.not_eq_true', Bool.not_eq_false, List.headD_cons, Bool.and_eq_true, not_lt,
        gt_iff_lt] at hbounds hrange
      obtain ⟨hlength, hdigits⟩ := hbounds
      have hfirst := isInteger_iff_numeral.mp (hdigits first (by simp))
      match rest with
      | [] =>
        obtain rfl := eq_of_splitOn_single hsplit
        have hwithin : (Base.single (intOf text)).Within ⟨minimum, maximum⟩ :=
          ⟨of_decide_eq_true hrange.1.1.1, of_decide_eq_true hrange.1.1.2⟩
        exact ⟨.single (intOf text), .single hfirst, hwithin, rfl⟩
      | [last] =>
        obtain rfl := eq_of_splitOn_pair hsplit
        have hlast := isInteger_iff_numeral.mp (hdigits last (by simp))
        obtain ⟨⟨hstart, hstop⟩, horder⟩ := hrange
        have hwithin : (Base.range (intOf first) (intOf last)).Within ⟨minimum, maximum⟩ :=
          ⟨of_decide_eq_true hstart.1, horder, of_decide_eq_true hstop.2⟩
        exact ⟨.range (intOf first) (intOf last), .range hfirst hlast, hwithin, rfl⟩
      | _ :: _ :: _ => simp at hlength

theorem fieldRange_complete {base : Base} {extendSingle : Bool} (hspelled : base.Spelled text)
    (hwithin : base.Within ⟨minimum, maximum⟩) :
    fieldRange text minimum maximum label extendSingle =
      .ok (base.interval ⟨minimum, maximum⟩ extendSingle) := by
  unfold fieldRange
  cases hspelled with
  | star => rfl
  | @single _ n numeral =>
    have hstar : text ≠ ['*'] := by
      rintro rfl
      exact numeral.not_mem (c := '*') rfl (by simp)
    have hinteger : isInteger text = true := isInteger_iff.mpr numeral.digits
    have hsplit := List.splitOn_eq_singleton (numeral.not_mem (c := '-') rfl)
    obtain ⟨hmin, hmax⟩ : minimum ≤ n ∧ n ≤ maximum := hwithin
    rw [if_neg hstar]
    cases extendSingle <;> simp [hsplit, hinteger, numeral.intOf_eq, Base.interval] <;> omega
  | @range first last a b start stop =>
    have hstar : first ++ '-' :: last ≠ ['*'] := by
      intro heq
      have hmem : '-' ∈ first ++ '-' :: last := by simp
      rw [heq] at hmem
      simp at hmem
    have hfirst : isInteger first = true := isInteger_iff.mpr start.digits
    have hlast : isInteger last = true := isInteger_iff.mpr stop.digits
    have hsplit := splitOn_pair (start.not_mem (c := '-') rfl) (stop.not_mem (c := '-') rfl)
    obtain ⟨hmin, hle, hmax⟩ : minimum ≤ a ∧ a ≤ b ∧ b ≤ maximum := hwithin
    rw [if_neg hstar]
    simp [hsplit, hfirst, hlast, start.intOf_eq, stop.intOf_eq, Base.interval]
    omega

/-- The characters of bases and steps. -/
theorem Base.Spelled.chars {base : Base} (h : base.Spelled text) :
    text ≠ [] ∧ ∀ c ∈ text, isDigit c = true ∨ c = '*' ∨ c = '-' := by
  cases h with
  | star => simp
  | single numeral => exact ⟨numeral.digits.1, fun c hc => .inl (numeral.digits.2 c hc)⟩
  | @range first last a b start stop =>
    refine ⟨by simp, ?_⟩
    intro c hc
    rcases List.mem_append.mp hc with hfirst | hlast
    · exact .inl (start.digits.2 c hfirst)
    · rcases List.mem_cons.mp hlast with rfl | hlast
      · exact .inr (.inr rfl)
      · exact .inl (stop.digits.2 c hlast)

theorem Base.Spelled.not_mem {base : Base} (h : base.Spelled text) {c : Char}
    (hc : isDigit c = false ∧ c ≠ '*' ∧ c ≠ '-') : c ∉ text := by
  intro hmem
  rcases h.chars.2 c hmem with hdigit | hstar | hdash
  · rw [hc.1] at hdigit
    cases hdigit
  · exact hc.2.1 hstar
  · exact hc.2.2 hdash

theorem splitStep_sound {first : List Char} {step : ℕ} {stepped : Bool}
    (h : splitStep text label = .ok (first, step, stepped)) :
    (text = first ∧ step = 1 ∧ stepped = false) ∨
      ∃ last, text = first ++ '/' :: last ∧ Numeral last step ∧ 1 ≤ step ∧ stepped = true := by
  unfold splitStep at h
  match hsplit : text.splitOn '/' with
  | [] => exact absurd hsplit (List.splitOn_ne_nil _ _)
  | [only] =>
    simp only [hsplit] at h
    obtain ⟨-, h⟩ := Execution.guard_eq_ok h
    simp only [Except.ok.injEq, Prod.mk.injEq] at h
    obtain ⟨rfl, rfl, rfl⟩ := h
    exact .inl ⟨eq_of_splitOn_single hsplit, rfl, rfl⟩
  | [only, last] =>
    simp only [hsplit] at h
    obtain ⟨-, h⟩ := Execution.guard_eq_ok h
    obtain ⟨hinteger, h⟩ := Execution.guard_eq_ok h
    obtain ⟨hpositive, h⟩ := Execution.guard_eq_ok h
    simp only [Except.ok.injEq, Prod.mk.injEq] at h
    obtain ⟨rfl, rfl, rfl⟩ := h
    refine .inr ⟨last, eq_of_splitOn_pair hsplit, ?_, by omega, rfl⟩
    exact isInteger_iff_numeral.mp (by simpa using hinteger)
  | _ :: _ :: _ :: _ =>
    simp only [hsplit] at h
    cases h

theorem splitStep_plain {base : Base} (h : base.Spelled text) :
    splitStep text label = .ok (text, 1, false) := by
  have hsplit := List.splitOn_eq_singleton (h.not_mem (c := '/') (by decide))
  have hne : text.isEmpty = false := by simpa using h.chars.1
  simp [splitStep, hsplit, hne]

theorem splitStep_stepped {base : Base} {last : List Char} {s : ℕ} (h : base.Spelled text)
    (numeral : Numeral last s) (hpositive : 1 ≤ s) :
    splitStep (text ++ '/' :: last) label = .ok (text, s, true) := by
  have hsplit := splitOn_pair (h.not_mem (c := '/') (by decide)) (numeral.not_mem (c := '/') rfl)
  have hne : text.isEmpty = false := by simpa using h.chars.1
  have hinteger : isInteger last = true := isInteger_iff.mpr numeral.digits
  simp [splitStep, hsplit, hne, hinteger, numeral.intOf_eq]
  omega

theorem mem_rangeValues {start stop step v : ℕ} :
    v ∈ rangeValues start (stop + 1) step ↔ start ≤ v ∧ v ≤ stop ∧ step ∣ v - start := by
  simp only [rangeValues, Finset.mem_filter, Finset.mem_range, Nat.dvd_iff_mod_eq_zero]
  constructor
  · rintro ⟨hstop, hstart, hmod⟩
    exact ⟨hstart, by omega, hmod⟩
  · rintro ⟨hstart, hstop, hmod⟩
    exact ⟨by omega, hstart, hmod⟩

theorem Term.denotes_iff {bounds : Bounds} {term : Term} {v : ℕ} :
    term.Denotes bounds v ↔ (term.base.interval bounds term.step.isSome).1 ≤ v ∧
      v ≤ (term.base.interval bounds term.step.isSome).2 ∧
      term.step.getD 1 ∣ v - (term.base.interval bounds term.step.isSome).1 := by
  obtain ⟨base, step⟩ := term
  cases base with
  | star => rfl
  | single n =>
    cases step with
    | none =>
      simp only [Denotes, Base.interval, Option.isSome_none, Bool.false_eq_true, if_false,
        Option.getD_none, one_dvd, and_true]
      omega
    | some s => simp [Denotes, Base.interval]
  | range a b => rfl

theorem addTerm_sound {values result : Finset ℕ}
    (h : addTerm minimum maximum label values text = .ok result) :
    ∃ term : Term, (term.Spelled text ∧ term.Within ⟨minimum, maximum⟩) ∧
      ∀ v, v ∈ result ↔ v ∈ values ∨ term.Denotes ⟨minimum, maximum⟩ v := by
  unfold addTerm at h
  obtain ⟨⟨first, step, stepped⟩, hsplit, h⟩ := Execution.bind_eq_ok h
  obtain ⟨interval, hrange, h⟩ := Execution.bind_eq_ok h
  obtain ⟨hstep, h⟩ := Execution.guard_eq_ok h
  obtain rfl := Except.ok.inj h
  obtain ⟨base, hspelled, hwithin, rfl⟩ := fieldRange_sound hrange
  rcases splitStep_sound hsplit with ⟨rfl, rfl, rfl⟩ | ⟨last, rfl, hnumeral, hpositive, rfl⟩
  · refine ⟨⟨base, none⟩, ⟨.plain hspelled, hwithin, by simp⟩, ?_⟩
    intro v
    rw [Finset.mem_union, mem_rangeValues, Term.denotes_iff]
    rfl
  · refine ⟨⟨base, some step⟩, ⟨.stepped hspelled hnumeral, hwithin, ?_⟩, ?_⟩
    · rintro s ⟨⟩
      exact ⟨hpositive, not_lt.mp hstep⟩
    · intro v
      rw [Finset.mem_union, mem_rangeValues, Term.denotes_iff]
      rfl

theorem addTerm_complete {term : Term} (values : Finset ℕ) (hspelled : term.Spelled text)
    (hwithin : term.Within ⟨minimum, maximum⟩) :
    ∃ result, addTerm minimum maximum label values text = .ok result ∧
      ∀ v, v ∈ result ↔ v ∈ values ∨ term.Denotes ⟨minimum, maximum⟩ v := by
  cases hspelled with
  | @plain base _ spelled =>
    have hrange : fieldRange text minimum maximum label false = _ :=
      fieldRange_complete spelled hwithin.1
    refine ⟨values ∪ rangeValues (base.interval ⟨minimum, maximum⟩ false).1
      ((base.interval ⟨minimum, maximum⟩ false).2 + 1) 1, ?_, ?_⟩
    · simp only [addTerm, splitStep_plain spelled, Execution.ok_bind, hrange]
      rw [if_neg (by omega)]
      rfl
    · intro v
      rw [Finset.mem_union, mem_rangeValues, Term.denotes_iff]
      rfl
  | @stepped base first last s spelled numeral =>
    obtain ⟨hpositive, hstep⟩ := hwithin.2 s rfl
    have hrange : fieldRange first minimum maximum label true = _ :=
      fieldRange_complete spelled hwithin.1
    refine ⟨values ∪ rangeValues (base.interval ⟨minimum, maximum⟩ true).1
      ((base.interval ⟨minimum, maximum⟩ true).2 + 1) s, ?_, ?_⟩
    · simp only [addTerm, splitStep_stepped spelled numeral hpositive, Execution.ok_bind, hrange]
      rw [if_neg (by simpa using hstep)]
      rfl
    · intro v
      rw [Finset.mem_union, mem_rangeValues, Term.denotes_iff]
      rfl

end Terms

section Fields

variable {minimum maximum : ℕ} {label : String} {text : List Char}

theorem foldlM_addTerm_sound {texts : List (List Char)} {values result : Finset ℕ}
    (h : texts.foldlM (addTerm minimum maximum label) values = .ok result) :
    ∃ terms : List Term,
      List.Forall₂ (fun term text => term.Spelled text ∧ term.Within ⟨minimum, maximum⟩)
        terms texts ∧
      ∀ v, v ∈ result ↔ v ∈ values ∨ FieldDenotes ⟨minimum, maximum⟩ terms v := by
  induction texts generalizing values with
  | nil =>
    obtain rfl := Except.ok.inj h
    exact ⟨[], .nil, by simp [FieldDenotes]⟩
  | cons text rest ih =>
    rw [List.foldlM_cons] at h
    obtain ⟨middle, hfirst, hrest⟩ := Execution.bind_eq_ok h
    obtain ⟨term, hterm, hmiddle⟩ := addTerm_sound hfirst
    obtain ⟨terms, hterms, hresult⟩ := ih hrest
    refine ⟨term :: terms, .cons hterm hterms, ?_⟩
    intro v
    rw [hresult, hmiddle, or_assoc]
    simp [FieldDenotes]

theorem foldlM_addTerm_complete {texts : List (List Char)} {terms : List Term}
    (h : List.Forall₂ (fun term text => term.Spelled text ∧ term.Within ⟨minimum, maximum⟩)
      terms texts) (values : Finset ℕ) :
    ∃ result, texts.foldlM (addTerm minimum maximum label) values = .ok result ∧
      ∀ v, v ∈ result ↔ v ∈ values ∨ FieldDenotes ⟨minimum, maximum⟩ terms v := by
  induction h generalizing values with
  | nil => exact ⟨values, rfl, by simp [FieldDenotes]⟩
  | @cons term text terms texts hterm _ ih =>
    obtain ⟨middle, hfirst, hmiddle⟩ := addTerm_complete values hterm.1 hterm.2
    obtain ⟨result, hrest, hresult⟩ := ih middle
    refine ⟨result, ?_, ?_⟩
    · rw [List.foldlM_cons, hfirst]
      exact hrest
    · intro v
      rw [hresult, hmiddle, or_assoc]
      simp [FieldDenotes]

/-- The characters of a field. -/
def isFieldChar (c : Char) : Bool := isDigit c || c = '*' || c = '-' || c = '/' || c = ','

theorem Term.Spelled.chars {term : Term} (h : term.Spelled text) :
    text ≠ [] ∧ ∀ c ∈ text, isFieldChar c = true ∧ c ≠ ',' := by
  have hbase : ∀ {base : Base} {text : List Char}, base.Spelled text → ∀ c ∈ text,
      isFieldChar c = true ∧ c ≠ ',' := by
    intro base text hspelled c hc
    refine ⟨?_, ?_⟩
    · rcases hspelled.chars.2 c hc with hdigit | rfl | rfl
      · simp [isFieldChar, hdigit]
      · rfl
      · rfl
    · rintro rfl
      exact hspelled.not_mem (by decide) hc
  cases h with
  | plain spelled => exact ⟨spelled.chars.1, hbase spelled⟩
  | @stepped base first last s spelled numeral =>
    refine ⟨by simp, ?_⟩
    intro c hc
    rcases List.mem_append.mp hc with hfirst | hlast
    · exact hbase spelled c hfirst
    · rcases List.mem_cons.mp hlast with rfl | hlast
      · decide
      · have hdigit := numeral.digits.2 c hlast
        refine ⟨by simp [isFieldChar, hdigit], ?_⟩
        rintro rfl
        cases hdigit

theorem exists_spelled_of_mem {bounds : Bounds} {terms : List Term} {texts : List (List Char)}
    (h : List.Forall₂ (fun term text => term.Spelled text ∧ term.Within bounds) terms texts)
    {part : List Char} (hpart : part ∈ texts) : ∃ term : Term, term.Spelled part := by
  induction h with
  | nil => cases hpart
  | @cons term text terms texts hterm _ ih =>
    rcases List.mem_cons.mp hpart with rfl | hrest
    · exact ⟨term, hterm.1⟩
    · exact ih hrest

theorem FieldSpelled.splitOn {bounds : Bounds} {terms : List Term}
    (h : FieldSpelled bounds terms text) :
    List.Forall₂ (fun term text => term.Spelled text ∧ term.Within bounds) terms
      (text.splitOn ',') := by
  obtain ⟨hne, texts, rfl, hterms⟩ := h
  rw [List.splitOn_intercalate]
  · exact hterms
  · intro part hpart hmem
    obtain ⟨term, hspelled⟩ := exists_spelled_of_mem hterms hpart
    exact (hspelled.chars.2 _ hmem).2 rfl
  · rintro rfl
    cases hterms
    exact hne rfl

theorem mem_intercalate_singleton {α : Type} {separator c : α} {parts : List (List α)}
    (h : c ∈ [separator].intercalate parts) : c = separator ∨ ∃ part ∈ parts, c ∈ part := by
  induction parts with
  | nil => cases h
  | cons first rest ih =>
    cases rest with
    | nil =>
      rw [List.intercalate_singleton] at h
      exact .inr ⟨first, by simp, h⟩
    | cons second rest =>
      rw [List.intercalate_cons_cons, List.append_assoc, List.mem_append, List.mem_append] at h
      rcases h with h | h | h
      · exact .inr ⟨first, by simp, h⟩
      · exact .inl (List.mem_singleton.mp h)
      · rcases ih h with h | ⟨part, hpart, h⟩
        · exact .inl h
        · exact .inr ⟨part, List.mem_cons_of_mem _ hpart, h⟩

theorem FieldSpelled.chars {bounds : Bounds} {terms : List Term}
    (h : FieldSpelled bounds terms text) :
    text ≠ [] ∧ ∀ c ∈ text, isFieldChar c = true := by
  have hsplit := h.splitOn
  constructor
  · rintro rfl
    rw [List.splitOn_nil] at hsplit
    obtain ⟨term, hspelled⟩ := exists_spelled_of_mem hsplit (List.mem_singleton_self [])
    exact hspelled.chars.1 rfl
  · intro c hc
    have hjoin : [','].intercalate (text.splitOn ',') = text := List.intercalate_splitOn ','
    rw [← hjoin] at hc
    rcases mem_intercalate_singleton hc with rfl | ⟨part, hpart, hc⟩
    · rfl
    · obtain ⟨term, hspelled⟩ := exists_spelled_of_mem hsplit hpart
      exact (hspelled.chars.2 c hc).1

/-- The values of a field, Sunday being 0 where 7 stands for it too. -/
def aliasedValue (sundayAlias : Bool) (u : ℕ) : ℕ := if sundayAlias && u = 7 then 0 else u

theorem mem_aliased {sundayAlias : Bool} {values : Finset ℕ} {v : ℕ} :
    v ∈ (if sundayAlias && decide (7 ∈ values) then insert 0 (values.erase 7) else values) ↔
      ∃ u ∈ values, v = aliasedValue sundayAlias u := by
  cases sundayAlias with
  | false => simp [aliasedValue]
  | true =>
    by_cases hseven : 7 ∈ values
    · simp only [hseven, decide_true, Bool.and_self, if_true, Finset.mem_insert,
        Finset.mem_erase, aliasedValue, Bool.true_and, decide_eq_true_eq]
      constructor
      · rintro (rfl | ⟨hne, hv⟩)
        · exact ⟨7, hseven, rfl⟩
        · exact ⟨v, hv, by rw [if_neg hne]⟩
      · rintro ⟨u, hu, rfl⟩
        by_cases hu7 : u = 7
        · exact .inl (if_pos hu7)
        · rw [if_neg hu7]
          exact .inr ⟨hu7, hu⟩
    · simp only [hseven, decide_false, Bool.and_false, Bool.false_eq_true, if_false, aliasedValue,
        Bool.true_and, decide_eq_true_eq]
      constructor
      · intro hv
        have hne : v ≠ 7 := by
          rintro rfl
          exact hseven hv
        exact ⟨v, hv, by rw [if_neg hne]⟩
      · rintro ⟨u, hu, rfl⟩
        have hne : u ≠ 7 := by
          rintro rfl
          exact hseven hu
        rw [if_neg hne]
        exact hu

theorem Base.Spelled.star_iff {base : Base} (h : base.Spelled text) :
    base = .star ↔ text = ['*'] := by
  cases h with
  | star => simp
  | single numeral =>
    have hne : text ≠ ['*'] := by
      rintro rfl
      exact numeral.not_mem (c := '*') rfl (by simp)
    simp [hne]
  | @range first last a b start stop =>
    have hne : first ++ '-' :: last ≠ ['*'] := by
      intro heq
      have hmem : '-' ∈ first ++ '-' :: last := by simp
      rw [heq] at hmem
      simp at hmem
    simp [hne]

theorem Term.Spelled.star_iff {term : Term} (h : term.Spelled text) :
    term = ⟨.star, none⟩ ↔ text = ['*'] := by
  cases h with
  | plain spelled => simp [← spelled.star_iff]
  | @stepped base first last s spelled numeral =>
    have hne : first ++ '/' :: last ≠ ['*'] := by
      intro heq
      have hmem : '/' ∈ first ++ '/' :: last := by simp
      rw [heq] at hmem
      simp at hmem
    simp [hne]

/-- One star is the only spelling of the unrestricted field. -/
theorem FieldSpelled.isStar_eq {bounds : Bounds} {terms : List Term}
    (h : FieldSpelled bounds terms text) : decide (text = ['*']) = isStar terms := by
  have hsplit := h.splitOn
  unfold isStar
  rw [decide_eq_decide]
  constructor
  · rintro rfl
    obtain ⟨term, rest, hterm, hrest, rfl⟩ := List.forall₂_cons_right_iff.mp hsplit
    obtain rfl := List.forall₂_nil_right_iff.mp hrest
    rw [hterm.1.star_iff.mpr rfl]
  · rintro rfl
    obtain ⟨part, rest, hterm, hrest, hparts⟩ := List.forall₂_cons_left_iff.mp hsplit
    obtain rfl := List.forall₂_nil_left_iff.mp hrest
    rw [eq_of_splitOn_single hparts]
    exact hterm.1.star_iff.mp rfl

theorem parseField_sound {sundayAlias : Bool} {field : CronField}
    (h : parseField text minimum maximum label sundayAlias = .ok field) :
    ∃ terms, FieldSpelled ⟨minimum, maximum⟩ terms text ∧ field.unrestricted = isStar terms ∧
      ∀ v, v ∈ field.values ↔
        ∃ u, FieldDenotes ⟨minimum, maximum⟩ terms u ∧ v = aliasedValue sundayAlias u := by
  unfold parseField at h
  obtain ⟨-, h⟩ := Execution.guard_eq_ok h
  obtain ⟨values, hvalues, h⟩ := Execution.bind_eq_ok h
  obtain rfl := Except.ok.inj h
  obtain ⟨terms, hterms, hresult⟩ := foldlM_addTerm_sound hvalues
  have hspelled : FieldSpelled ⟨minimum, maximum⟩ terms text := by
    refine ⟨?_, text.splitOn ',', (List.intercalate_splitOn ',').symm, hterms⟩
    rintro rfl
    exact List.splitOn_ne_nil _ _ (List.forall₂_nil_left_iff.mp hterms)
  refine ⟨terms, hspelled, hspelled.isStar_eq, ?_⟩
  intro v
  rw [mem_aliased]
  simp [hresult]

theorem parseField_complete {bounds : Bounds} {terms : List Term} {l : String} (sundayAlias : Bool)
    (h : FieldSpelled bounds terms text) :
    ∃ field, parseField text bounds.minimum bounds.maximum l sundayAlias = .ok field ∧
      field.unrestricted = isStar terms ∧
      ∀ v, v ∈ field.values ↔ ∃ u, FieldDenotes bounds terms u ∧ v = aliasedValue sundayAlias u := by
  obtain ⟨values, hvalues, hresult⟩ : ∃ result, (text.splitOn ',').foldlM
      (addTerm bounds.minimum bounds.maximum l) ∅ = .ok result ∧ _ :=
    foldlM_addTerm_complete h.splitOn ∅
  have hparts : (text.splitOn ',').any List.isEmpty = false := by
    rw [List.any_eq_false]
    intro part hpart
    obtain ⟨term, hspelled⟩ := exists_spelled_of_mem h.splitOn hpart
    simpa using hspelled.chars.1
  refine ⟨⟨if sundayAlias && decide (7 ∈ values) then insert 0 (values.erase 7) else values,
    isStar terms⟩, ?_, rfl, ?_⟩
  · simp only [parseField, hparts, Bool.false_eq_true, if_false, hvalues, Execution.ok_bind,
      h.isStar_eq]
    rfl
  · intro v
    rw [mem_aliased]
    simp [hresult]

end Fields

section Expressions

/-- A parsed expression holds the values that its schedule denotes. -/
structure FiveFieldCron.Means (cron : FiveFieldCron) (schedule : CronSchedule) : Prop where
  minute : ∀ v, v ∈ cron.minute.values ↔ FieldDenotes minuteBounds schedule.minute v
  hour : ∀ v, v ∈ cron.hour.values ↔ FieldDenotes hourBounds schedule.hour v
  dayOfMonth : ∀ v, v ∈ cron.dayOfMonth.values ↔
    FieldDenotes dayOfMonthBounds schedule.dayOfMonth v
  month : ∀ v, v ∈ cron.month.values ↔ FieldDenotes monthBounds schedule.month v
  dayOfWeek : ∀ v, v ∈ cron.dayOfWeek.values ↔ schedule.DayOfWeekDenotes v
  monthDayStar : cron.dayOfMonth.unrestricted = isStar schedule.dayOfMonth
  weekDayStar : cron.dayOfWeek.unrestricted = isStar schedule.dayOfWeek

theorem exists_aliasedValue_false {D : ℕ → Prop} {v : ℕ} :
    (∃ u, D u ∧ v = aliasedValue false u) ↔ D v := by
  simp [aliasedValue]

theorem parseFiveFieldCron_sound {expression : String} {cron : FiveFieldCron}
    (h : parseFiveFieldCron expression = .ok cron) :
    ∃ schedule : CronSchedule, schedule.Spelled expression ∧ cron.Means schedule := by
  unfold parseFiveFieldCron at h
  obtain ⟨hform, h⟩ := Execution.guard_eq_ok h
  have hlength : expression.toList.length ≤ 256 := by
    simp only [Bool.or_eq_true, decide_eq_true_eq, not_or, not_lt, gt_iff_lt,
      maxExpressionLength] at hform
    exact hform.1.1.1.2
  split at h
  next minuteText hourText dayOfMonthText monthText dayOfWeekText hsplit =>
    obtain ⟨minute, hminute, h⟩ := Execution.bind_eq_ok h
    obtain ⟨hour, hhour, h⟩ := Execution.bind_eq_ok h
    obtain ⟨dayOfMonth, hdayOfMonth, h⟩ := Execution.bind_eq_ok h
    obtain ⟨month, hmonth, h⟩ := Execution.bind_eq_ok h
    obtain ⟨dayOfWeek, hdayOfWeek, h⟩ := Execution.bind_eq_ok h
    obtain rfl := Except.ok.inj h
    obtain ⟨minutes, hminutes, -, hminute⟩ := parseField_sound hminute
    obtain ⟨hours, hhours, -, hhour⟩ := parseField_sound hhour
    obtain ⟨monthDays, hmonthDays, hmonthDayStar, hdayOfMonth⟩ := parseField_sound hdayOfMonth
    obtain ⟨months, hmonths, -, hmonth⟩ := parseField_sound hmonth
    obtain ⟨weekDays, hweekDays, hweekDayStar, hdayOfWeek⟩ := parseField_sound hdayOfWeek
    have htext : expression.toList = [' '].intercalate (expression.toList.splitOn ' ') :=
      (List.intercalate_splitOn ' ').symm
    rw [hsplit] at htext
    refine ⟨⟨minutes, hours, monthDays, months, weekDays⟩, ⟨hlength, minuteText, hourText,
      dayOfMonthText, monthText, dayOfWeekText, htext, hminutes, hhours, hmonthDays, hmonths,
      hweekDays⟩, ?_⟩
    exact {
      minute := fun v => (hminute v).trans exists_aliasedValue_false
      hour := fun v => (hhour v).trans exists_aliasedValue_false
      dayOfMonth := fun v => (hdayOfMonth v).trans exists_aliasedValue_false
      month := fun v => (hmonth v).trans exists_aliasedValue_false
      dayOfWeek := fun v => by
        simpa [aliasedValue, CronSchedule.DayOfWeekDenotes, dayOfWeekBounds] using hdayOfWeek v
      monthDayStar := hmonthDayStar
      weekDayStar := hweekDayStar }
  · cases h

theorem isSpace_of_isFieldChar {c : Char} (h : isFieldChar c = true) : isSpace c = false := by
  simp only [isFieldChar, isDigit, Bool.or_eq_true, Bool.and_eq_true, decide_eq_true_eq] at h
  rcases h with (((hdigit | rfl) | rfl) | rfl) | rfl
  · simp only [isSpace, Bool.or_eq_false_iff, Bool.and_eq_false_iff, decide_eq_false_iff_not,
      beq_eq_false_iff_ne]
    omega
  · decide
  · decide
  · decide
  · decide

theorem hasDoubleSpace_append {first rest : List Char} (h : ' ' ∉ first) :
    hasDoubleSpace (first ++ rest) = hasDoubleSpace rest := by
  induction first with
  | nil => rfl
  | cons c first ih =>
    rw [List.mem_cons, not_or] at h
    rw [List.cons_append, hasDoubleSpace, ih h.2]
    intro _ hc _
    exact h.1 hc.symm

theorem hasDoubleSpace_intercalate {parts : List (List Char)}
    (h : ∀ part ∈ parts, part ≠ [] ∧ ' ' ∉ part) :
    hasDoubleSpace ([' '].intercalate parts) = false := by
  induction parts with
  | nil => rfl
  | cons first rest ih =>
    obtain ⟨-, hfirst⟩ := h first (by simp)
    have hrest := ih (fun part hpart => h part (List.mem_cons_of_mem _ hpart))
    cases rest with
    | nil =>
      rw [List.intercalate_singleton, ← List.append_nil first, hasDoubleSpace_append hfirst]
      rfl
    | cons second rest =>
      obtain ⟨hne, hsecond⟩ := h second (by simp)
      rw [List.intercalate_cons_cons, List.append_assoc, hasDoubleSpace_append hfirst]
      obtain ⟨c, tail, rfl⟩ := List.exists_cons_of_ne_nil hne
      have hc : ' ' ≠ c := by
        rintro rfl
        simp at hsecond
      rw [List.intercalate_cons_cons_left] at hrest ⊢
      rw [List.singleton_append, hasDoubleSpace, hrest]
      intro _ _ htail
      exact hc (List.cons.inj htail).1.symm

theorem hasOuterSpace_of_chars {text : List Char}
    (hhead : ∀ c ∈ text.head?, isSpace c = false) (hlast : ∀ c ∈ text.getLast?, isSpace c = false) :
    hasOuterSpace text = false := by
  unfold hasOuterSpace
  rw [Bool.or_eq_false_iff]
  constructor
  · cases hh : text.head? with
    | none => rfl
    | some c => exact hhead c hh
  · cases hl : text.getLast? with
    | none => rfl
    | some c => exact hlast c hl

theorem parseFiveFieldCron_complete {expression : String} {schedule : CronSchedule}
    (h : schedule.Spelled expression) :
    ∃ cron, parseFiveFieldCron expression = .ok cron ∧ cron.Means schedule := by
  obtain ⟨hlength, minuteText, hourText, dayOfMonthText, monthText, dayOfWeekText, htext,
    hminutes, hhours, hmonthDays, hmonths, hweekDays⟩ := h
  have hparts : ∀ part ∈ [minuteText, hourText, dayOfMonthText, monthText, dayOfWeekText],
      part ≠ [] ∧ ∀ c ∈ part, isFieldChar c = true := by
    intro part hpart
    simp only [List.mem_cons, List.not_mem_nil, or_false] at hpart
    rcases hpart with rfl | rfl | rfl | rfl | rfl
    · exact hminutes.chars
    · exact hhours.chars
    · exact hmonthDays.chars
    · exact hmonths.chars
    · exact hweekDays.chars
  have hblank : ∀ part ∈ [minuteText, hourText, dayOfMonthText, monthText, dayOfWeekText],
      ' ' ∉ part := by
    intro part hpart hmem
    have hspace := isSpace_of_isFieldChar ((hparts part hpart).2 _ hmem)
    cases hspace
  have hsplit : expression.toList.splitOn ' ' =
      [minuteText, hourText, dayOfMonthText, monthText, dayOfWeekText] := by
    rw [htext, List.splitOn_intercalate ' ' hblank (by simp)]
  have hform : (expression.toList.isEmpty || decide (expression.toList.length > maxExpressionLength) ||
      hasOuterSpace expression.toList || hasDoubleSpace expression.toList ||
      expression.toList.any (fun c => c = '\t' || c = '\n' || c = '\r')) = false := by
    have hdouble := hasDoubleSpace_intercalate (fun part hpart =>
      ⟨(hparts part hpart).1, hblank part hpart⟩)
    rw [← htext] at hdouble
    have hchars : ∀ c ∈ expression.toList, c = ' ' ∨ isFieldChar c = true := by
      intro c hc
      rw [htext] at hc
      rcases mem_intercalate_singleton hc with rfl | ⟨part, hpart, hc⟩
      · exact .inl rfl
      · exact .inr ((hparts part hpart).2 c hc)
    have houter : hasOuterSpace expression.toList = false := by
      obtain ⟨c, minuteRest, hminuteText⟩ := List.exists_cons_of_ne_nil hminutes.chars.1
      obtain ⟨weekRest, d, hweekText⟩ :=
        (List.eq_nil_or_concat dayOfWeekText).resolve_left hweekDays.chars.1
      have hc := isSpace_of_isFieldChar (hminutes.chars.2 c (by simp [hminuteText]))
      have hd := isSpace_of_isFieldChar (hweekDays.chars.2 d (by simp [hweekText]))
      apply hasOuterSpace_of_chars
      · rw [htext, hminuteText, List.intercalate_cons_cons_left]
        rintro _ ⟨⟩
        exact hc
      · rw [htext, hweekText]
        simp only [List.intercalate_cons_cons, List.intercalate_singleton, List.concat_eq_append,
          ← List.append_assoc, List.getLast?_append_cons, List.getLast?_singleton]
        rintro _ ⟨⟩
        exact hd
    have htabs : expression.toList.any (fun c => c = '\t' || c = '\n' || c = '\r') = false := by
      rw [List.any_eq_false]
      intro c hc
      rcases hchars c hc with rfl | hfield
      · decide
      · have hspace := isSpace_of_isFieldChar hfield
        simp only [Bool.or_eq_true, decide_eq_true_eq, not_or]
        refine ⟨⟨?_, ?_⟩, ?_⟩ <;> rintro rfl <;> cases hspace
    have hempty : expression.toList.isEmpty = false := by
      rw [htext]
      obtain ⟨c, minuteRest, rfl⟩ := List.exists_cons_of_ne_nil hminutes.chars.1
      rw [List.intercalate_cons_cons_left]
      rfl
    have hlong : decide (expression.toList.length > maxExpressionLength) = false := by
      simpa [maxExpressionLength] using hlength
    rw [hempty, hlong, houter, hdouble, htabs]
    rfl
  obtain ⟨minute, (hminute : parseField minuteText 0 59 "minute" false = .ok minute), -,
    hminuteValues⟩ := parseField_complete false hminutes
  obtain ⟨hour, (hhour : parseField hourText 0 23 "hour" false = .ok hour), -, hhourValues⟩ :=
    parseField_complete false hhours
  obtain ⟨dayOfMonth,
    (hdayOfMonth : parseField dayOfMonthText 1 31 "day of month" false = .ok dayOfMonth),
    hmonthDayStar, hdayOfMonthValues⟩ := parseField_complete false hmonthDays
  obtain ⟨month, (hmonth : parseField monthText 1 12 "month" false = .ok month), -,
    hmonthValues⟩ := parseField_complete false hmonths
  obtain ⟨dayOfWeek,
    (hdayOfWeek : parseField dayOfWeekText 0 7 "day of week" true = .ok dayOfWeek),
    hweekDayStar, hdayOfWeekValues⟩ := parseField_complete true hweekDays
  refine ⟨⟨expression, minute, hour, dayOfMonth, month, dayOfWeek⟩, ?_, ?_⟩
  · simp only [parseFiveFieldCron, hform, Bool.false_eq_true, if_false, hsplit, hminute, hhour,
      hdayOfMonth, hmonth, hdayOfWeek, Execution.ok_bind]
    rfl
  · exact {
      minute := fun v => (hminuteValues v).trans exists_aliasedValue_false
      hour := fun v => (hhourValues v).trans exists_aliasedValue_false
      dayOfMonth := fun v => (hdayOfMonthValues v).trans exists_aliasedValue_false
      month := fun v => (hmonthValues v).trans exists_aliasedValue_false
      dayOfWeek := fun v => by
        simpa [aliasedValue, CronSchedule.DayOfWeekDenotes] using hdayOfWeekValues v
      monthDayStar := hmonthDayStar
      weekDayStar := hweekDayStar }

end Expressions

section Matching

variable {cron : FiveFieldCron} {schedule : CronSchedule}

theorem day_bounds (days : ℤ) : 1 ≤ (civilDate days).2.2 ∧ (civilDate days).2.2 ≤ 31 := by
  simp only [civilDate]
  omega

theorem fieldDenotes_star {bounds : Bounds} {terms : List Term} {v : ℕ}
    (hstar : isStar terms = true) (hv : bounds.minimum ≤ v ∧ v ≤ bounds.maximum) :
    FieldDenotes bounds terms v := by
  obtain rfl := of_decide_eq_true hstar
  exact ⟨_, List.mem_singleton_self _, hv.1, hv.2, one_dvd _⟩

/-- Every day of the week is among those of a star. -/
theorem dayOfWeekDenotes_star (hstar : isStar schedule.dayOfWeek = true) (weekday : ℕ) :
    schedule.DayOfWeekDenotes ((weekday + 1) % 7) := by
  have hsmall : (weekday + 1) % 7 < 7 := Nat.mod_lt _ (by omega)
  refine ⟨(weekday + 1) % 7, fieldDenotes_star hstar ⟨by simp [dayOfWeekBounds], ?_⟩, ?_⟩
  · show (weekday + 1) % 7 ≤ 7
    omega
  · rw [if_neg (by omega)]

/-- Matching a local time, whose day is a day of a month. -/
theorem FiveFieldCron.Means.matchesLocal_iff (h : cron.Means schedule) {time : LocalTime}
    (hday : 1 ≤ time.day ∧ time.day ≤ 31) :
    cron.matchesLocal time = true ↔ schedule.Selects time := by
  have hmonthDay : isStar schedule.dayOfMonth = true →
      FieldDenotes dayOfMonthBounds schedule.dayOfMonth time.day :=
    fun hstar => fieldDenotes_star hstar hday
  have hweekDay : isStar schedule.dayOfWeek = true →
      schedule.DayOfWeekDenotes ((time.weekday + 1) % 7) :=
    fun hstar => dayOfWeekDenotes_star hstar time.weekday
  unfold matchesLocal CronSchedule.Selects
  simp only [← h.minute, ← h.hour, ← h.month, ← h.dayOfMonth, ← h.dayOfWeek] at hmonthDay hweekDay ⊢
  rw [h.monthDayStar, h.weekDayStar]
  by_cases htime : time.minute ∈ cron.minute.values ∧ time.hour ∈ cron.hour.values ∧
      time.month ∈ cron.month.values
  · obtain ⟨hminute, hhour, hmonth⟩ := htime
    cases hstarM : isStar schedule.dayOfMonth <;> cases hstarW : isStar schedule.dayOfWeek <;>
      simp [hminute, hhour, hmonth, hmonthDay, hweekDay, hstarM, hstarW]
  · simp only [← and_assoc] at htime ⊢
    simp [htime]

/-- The parser accepts exactly the texts of the grammar, and a parsed expression holds the values
of its terms and matches the local minutes that the schedule selects. -/
theorem parseFiveFieldCron_language (expression : String) :
    ((∃ cron, parseFiveFieldCron expression = .ok cron) ↔
      ∃ schedule : CronSchedule, schedule.Spelled expression) ∧
    ∀ schedule : CronSchedule, schedule.Spelled expression →
      ∃ cron, parseFiveFieldCron expression = .ok cron ∧ cron.Means schedule ∧
        ∀ seconds, cron.matchesLocal (localTimeOfSeconds seconds) = true ↔
          schedule.Selects (localTimeOfSeconds seconds) := by
  constructor
  · constructor
    · rintro ⟨cron, hparse⟩
      obtain ⟨schedule, hspelled, -⟩ := parseFiveFieldCron_sound hparse
      exact ⟨schedule, hspelled⟩
    · rintro ⟨schedule, hspelled⟩
      obtain ⟨cron, hparse, -⟩ := parseFiveFieldCron_complete hspelled
      exact ⟨cron, hparse⟩
  · intro schedule hspelled
    obtain ⟨cron, hparse, hmeans⟩ := parseFiveFieldCron_complete hspelled
    exact ⟨cron, hparse, hmeans, fun seconds => hmeans.matchesLocal_iff (day_bounds _)⟩

/-- Quarter hours of the working day, on two days of the month and on weekdays. -/
theorem parseFiveFieldCron_language_office_hours :
    ∃ (schedule : CronSchedule) (cron : FiveFieldCron),
      schedule.Spelled "*/15 9-17 1,15 * 1-5" ∧
      parseFiveFieldCron "*/15 9-17 1,15 * 1-5" = .ok cron ∧ cron.Means schedule := by
  obtain ⟨hlanguage, hmeaning⟩ := parseFiveFieldCron_language "*/15 9-17 1,15 * 1-5"
  have haccepted : ∃ cron, parseFiveFieldCron "*/15 9-17 1,15 * 1-5" = .ok cron := ⟨_, rfl⟩
  obtain ⟨schedule, hspelled⟩ := hlanguage.mp haccepted
  obtain ⟨cron, hparse, hmeans, -⟩ := hmeaning schedule hspelled
  exact ⟨schedule, cron, hspelled, hparse, hmeans⟩

end Matching

end Dander.Schedule
