import Dander.Execution
import Dander.Generators
import Mathlib

/-!
# Comma-separated values

Records of fields are rendered with a line for each record, and fields in double quotes where they
have to be or anywhere else. A text is split into lines, and a reader makes records of the lines,
one character after another. A line break in a field is lost when the text is split.
-/
namespace CsvText

open Generator

section Lines

/-- The characters that `str.splitlines` splits at. -/
def isBoundary (c : Char) : Bool := [10, 11, 12, 13, 28, 29, 30, 133, 8232, 8233].contains c.toNat

def consHead (c : Char) : List (List Char) → List (List Char)
  | [] => [[c]]
  | line :: lines => (c :: line) :: lines

/-- `str.splitlines`, without the line ends. -/
def splitlines : List Char → List (List Char)
  | [] => []
  | '\r' :: '\n' :: rest => [] :: splitlines rest
  | c :: rest => if isBoundary c then [] :: splitlines rest else consHead c (splitlines rest)

/-- A line without a line break. -/
def Unbroken (line : List Char) : Prop := ∀ c ∈ line, isBoundary c = false

theorem splitlines_cons {c : Char} (h : isBoundary c = false) (rest : List Char) :
    splitlines (c :: rest) = consHead c (splitlines rest) := by
  rw [splitlines, h, if_neg Bool.false_ne_true]
  rintro rest' rfl -
  have hreturn : isBoundary '\r' = true := by decide
  rw [hreturn] at h
  cases h

theorem splitlines_newline (rest : List Char) :
    splitlines ('\n' :: rest) = [] :: splitlines rest := by
  have hnewline : isBoundary '\n' = true := by decide
  rw [splitlines, hnewline, if_pos rfl]
  intro rest' heq
  cases heq

theorem splitlines_line {line : List Char} (h : Unbroken line) (rest : List Char) :
    splitlines (line ++ '\n' :: rest) = line :: splitlines rest := by
  induction line with
  | nil => exact splitlines_newline rest
  | cons c line ih =>
    have hrest := ih fun d hd => h d (List.mem_cons_of_mem c hd)
    rw [List.cons_append, splitlines_cons (h c List.mem_cons_self), hrest]
    rfl

/-- A last line without a line end. -/
theorem splitlines_last {line : List Char} (h : Unbroken line) :
    splitlines line = if line = [] then [] else [line] := by
  induction line with
  | nil => rfl
  | cons c line ih =>
    have hrest := ih fun d hd => h d (List.mem_cons_of_mem c hd)
    rw [splitlines_cons (h c List.mem_cons_self), hrest, if_neg (List.cons_ne_nil c line)]
    split
    next hempty => rw [hempty, consHead]
    · rfl

theorem splitlines_lines {lines : List (List Char)} (h : ∀ line ∈ lines, Unbroken line)
    (rest : List Char) :
    splitlines (lines.flatMap (fun line => line ++ ['\n']) ++ rest) =
      lines ++ splitlines rest := by
  induction lines with
  | nil => rfl
  | cons line lines ih =>
    have hrest := ih fun other hother => h other (List.mem_cons_of_mem line hother)
    rw [List.flatMap_cons, List.append_assoc, List.append_assoc, List.singleton_append,
      splitlines_line (h line List.mem_cons_self), hrest, List.cons_append]

theorem unbroken_of_consHead {c : Char} {lines : List (List Char)} (hc : isBoundary c = false)
    (h : ∀ line ∈ lines, Unbroken line) : ∀ line ∈ consHead c lines, Unbroken line := by
  cases lines with
  | nil =>
    intro line hline
    obtain rfl := List.mem_singleton.mp hline
    intro d hd
    obtain rfl := List.mem_singleton.mp hd
    exact hc
  | cons first rest =>
    intro line hline
    rcases List.mem_cons.mp hline with rfl | hin
    · intro d hd
      rcases List.mem_cons.mp hd with rfl | hin
      · exact hc
      · exact h first List.mem_cons_self d hin
    · exact h line (List.mem_cons_of_mem first hin)

/-- No line that a text is split into has a line break. -/
theorem unbroken_of_mem_splitlines (input : List Char) :
    ∀ line ∈ splitlines input, Unbroken line := by
  have hnil : Unbroken [] := nofun
  induction input using splitlines.induct with
  | case1 => simp [splitlines]
  | case2 rest ih =>
    rw [splitlines]
    intro line hline
    rcases List.mem_cons.mp hline with rfl | hin
    · exact hnil
    · exact ih line hin
  | case3 c rest hne hboundary ih =>
    rw [splitlines, if_pos hboundary]
    · intro line hline
      rcases List.mem_cons.mp hline with rfl | hin
      · exact hnil
      · exact ih line hin
    · exact hne
  | case4 c rest hne hboundary ih =>
    rw [splitlines, if_neg hboundary]
    · exact unbroken_of_consHead (Bool.eq_false_of_not_eq_true hboundary) ih
    · exact hne

end Lines

section Reader

inductive State where
  | startRecord
  | startField
  | inField
  | inQuotedField
  | quoteInQuotedField
  | eatNewline
  deriving DecidableEq

structure Error where
  message : String
  deriving DecidableEq

/-- A reader of one record: the field that it is in and the fields before it. -/
structure Reader where
  state : State
  field : List Char
  fields : List (List Char)
  deriving DecidableEq

def Reader.start : Reader := ⟨.startRecord, [], []⟩

/-- `csv.field_size_limit()` -/
def fieldLimit : ℕ := 131072

def isNewline (c : Char) : Bool := c = '\n' || c = '\r'

/-- Adds a character to the field, unless the field is too long. -/
def Reader.add (reader : Reader) (c : Char) (state : State) : Except Error Reader :=
  if fieldLimit ≤ reader.field.length then .error ⟨"field larger than field limit (131072)"⟩
  else .ok ⟨state, reader.field ++ [c], reader.fields⟩

def Reader.save (reader : Reader) (state : State) : Reader :=
  ⟨state, [], reader.fields ++ [reader.field]⟩

def Reader.beginField (reader : Reader) (c : Char) : Except Error Reader :=
  if isNewline c then .ok (reader.save .eatNewline)
  else if c = '"' then .ok { reader with state := .inQuotedField }
  else if c = ',' then .ok (reader.save .startField)
  else reader.add c .inField

/-- One character of a line, or the end of the line. -/
def process (reader : Reader) : Option Char → Except Error Reader
  | none =>
    match reader.state with
    | .startRecord | .inQuotedField => .ok reader
    | .startField | .inField | .quoteInQuotedField => .ok (reader.save .startRecord)
    | .eatNewline => .ok { reader with state := .startRecord }
  | some c =>
    match reader.state with
    | .startRecord =>
      if isNewline c then .ok { reader with state := .eatNewline } else reader.beginField c
    | .startField => reader.beginField c
    | .inField =>
      if isNewline c then .ok (reader.save .eatNewline)
      else if c = ',' then .ok (reader.save .startField)
      else reader.add c .inField
    | .inQuotedField =>
      if c = '"' then .ok { reader with state := .quoteInQuotedField }
      else reader.add c .inQuotedField
    | .quoteInQuotedField =>
      if c = '"' then reader.add c .inQuotedField
      else if c = ',' then .ok (reader.save .startField)
      else if isNewline c then .ok (reader.save .eatNewline)
      else reader.add c .inField
    | .eatNewline =>
      if isNewline c then .ok reader
      else .error ⟨"new-line character seen in unquoted field"⟩

def feed (reader : Reader) (input : List (Option Char)) : Except Error Reader :=
  input.foldlM process reader

/-- The characters of a line and its end. -/
def ended (line : List Char) : List (Option Char) := line.map some ++ [none]

/-- The records of lines: a record goes on with the next line until it is complete. -/
def records (reader : Reader) : List (List Char) → Trace Error (List (List Char))
  | [] =>
    if reader.field = [] ∧ reader.state ≠ .inQuotedField then .nil
    else ⟨[reader.fields ++ [reader.field]], .ok ()⟩
  | line :: lines =>
    match feed reader (ended line) with
    | .error error => .raised error
    | .ok next =>
      if next.state = .startRecord then
        Trace.andThen ⟨[next.fields], .ok ()⟩ (records .start lines)
      else records next lines

end Reader

section Characters

/-- All characters of the reader's fields satisfy a condition. -/
def Reader.Among (p : Char → Prop) (reader : Reader) : Prop :=
  (∀ c ∈ reader.field, p c) ∧ ∀ field ∈ reader.fields, ∀ c ∈ field, p c

variable {p : Char → Prop} {reader next : Reader}

theorem Reader.Among.start : Reader.Among p .start :=
  ⟨nofun, nofun⟩

theorem Reader.Among.add (h : reader.Among p) {c : Char} (hc : p c) {state : State}
    (hadd : reader.add c state = .ok next) : next.Among p := by
  unfold Reader.add at hadd
  split at hadd
  · cases hadd
  · obtain rfl := Except.ok.inj hadd
    refine ⟨?_, h.2⟩
    intro d hd
    rcases List.mem_append.mp hd with hin | hlast
    · exact h.1 d hin
    · obtain rfl := List.mem_singleton.mp hlast
      exact hc

theorem Reader.Among.save (h : reader.Among p) (state : State) : (reader.save state).Among p := by
  refine ⟨nofun, ?_⟩
  intro field hfield
  rcases List.mem_append.mp hfield with hin | hlast
  · exact h.2 field hin
  · obtain rfl := List.mem_singleton.mp hlast
    exact h.1

theorem Reader.Among.beginField (h : reader.Among p) {c : Char} (hc : p c)
    (hnext : reader.beginField c = .ok next) : next.Among p := by
  unfold Reader.beginField at hnext
  split at hnext
  · obtain rfl := Except.ok.inj hnext
    exact h.save _
  · split at hnext
    · obtain rfl := Except.ok.inj hnext
      exact h
    · split at hnext
      · obtain rfl := Except.ok.inj hnext
        exact h.save _
      · exact h.add hc hnext

theorem Reader.Among.process (h : reader.Among p) {c : Option Char} (hc : ∀ d ∈ c, p d)
    (hnext : process reader c = .ok next) : next.Among p := by
  cases c with
  | none =>
    unfold CsvText.process at hnext
    cases hstate : reader.state <;> simp only [hstate, Except.ok.injEq] at hnext <;>
      subst hnext <;> first | exact h | exact h.save _
  | some c =>
    have hchar : p c := hc c rfl
    unfold CsvText.process at hnext
    cases hstate : reader.state <;> simp only [hstate] at hnext
    · split at hnext
      · obtain rfl := Except.ok.inj hnext
        exact h
      · exact h.beginField hchar hnext
    · exact h.beginField hchar hnext
    · split at hnext
      · obtain rfl := Except.ok.inj hnext
        exact h.save _
      · split at hnext
        · obtain rfl := Except.ok.inj hnext
          exact h.save _
        · exact h.add hchar hnext
    · split at hnext
      · obtain rfl := Except.ok.inj hnext
        exact h
      · exact h.add hchar hnext
    · split at hnext
      · exact h.add hchar hnext
      · split at hnext
        · obtain rfl := Except.ok.inj hnext
          exact h.save _
        · split at hnext
          · obtain rfl := Except.ok.inj hnext
            exact h.save _
          · exact h.add hchar hnext
    · split at hnext
      · obtain rfl := Except.ok.inj hnext
        exact h
      · cases hnext

theorem Reader.Among.feed (h : reader.Among p) {input : List (Option Char)}
    (hinput : ∀ c ∈ input, ∀ d ∈ c, p d) (hnext : feed reader input = .ok next) :
    next.Among p := by
  induction input generalizing reader with
  | nil =>
    obtain rfl := Except.ok.inj hnext
    exact h
  | cons c input ih =>
    rw [CsvText.feed, List.foldlM_cons] at hnext
    obtain ⟨middle, hmiddle, hrest⟩ := Execution.bind_eq_ok hnext
    exact ih (h.process (hinput c List.mem_cons_self) hmiddle)
      (fun other hother => hinput other (List.mem_cons_of_mem c hother)) hrest

/-- A reader makes its fields of the characters of the lines. -/
theorem among_records {lines : List (List Char)} (h : reader.Among p)
    (hlines : ∀ line ∈ lines, ∀ c ∈ line, p c) :
    ∀ record ∈ (records reader lines).items, ∀ field ∈ record, ∀ c ∈ field, p c := by
  induction lines generalizing reader with
  | nil =>
    intro record hrecord field hfield
    unfold records at hrecord
    split at hrecord
    · cases hrecord
    · obtain rfl := List.mem_singleton.mp hrecord
      rcases List.mem_append.mp hfield with hin | hlast
      · exact h.2 field hin
      · obtain rfl := List.mem_singleton.mp hlast
        exact h.1
  | cons line lines ih =>
    have hrest : ∀ other ∈ lines, ∀ c ∈ other, p c :=
      fun other hother => hlines other (List.mem_cons_of_mem line hother)
    have hended : ∀ c ∈ ended line, ∀ d ∈ c, p d := by
      intro c hc d hd
      rcases List.mem_append.mp hc with hin | hlast
      · obtain ⟨e, he, rfl⟩ := List.mem_map.mp hin
        obtain rfl := Option.some.inj hd
        exact hlines line List.mem_cons_self _ he
      · obtain rfl := List.mem_singleton.mp hlast
        cases hd
    intro record hrecord
    unfold records at hrecord
    cases hfeed : feed reader (ended line) with
    | error error =>
      rw [hfeed] at hrecord
      cases hrecord
    | ok next =>
      have hnext := h.feed hended hfeed
      rw [hfeed] at hrecord
      dsimp only at hrecord
      split at hrecord
      · rw [Trace.andThen_of_ok rfl] at hrecord
        rcases List.mem_append.mp hrecord with hfirst | hlater
        · obtain rfl := List.mem_singleton.mp hfirst
          exact hnext.2
        · exact ih Reader.Among.start hrest record hlater
      · exact ih hnext hrest record hrecord

end Characters

end CsvText
