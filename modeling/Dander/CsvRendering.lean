import Dander.CsvText

/-!
# Rendered records

What a reader makes of rendered records without line breaks: the same records, except that an
empty line is an empty record, unless a field is too long for it.
-/
namespace CsvText

open Generator

section Rendering

/-- A field with a comma, a double quote or a line end has to be in double quotes. -/
def needsQuotes (value : List Char) : Bool :=
  value.any fun c => c = ',' || c = '"' || isNewline c

/-- A field, and whether it is in double quotes. -/
structure Cell where
  value : List Char
  quoted : Bool
  valid : quoted = true ∨ needsQuotes value = false

/-- Double quotes are doubled. -/
def escape (value : List Char) : List Char :=
  value.flatMap fun c => if c = '"' then ['"', '"'] else [c]

def Cell.text (cell : Cell) : List Char :=
  if cell.quoted then '"' :: (escape cell.value ++ ['"']) else cell.value

def renderRow : List Cell → List Char
  | [] => []
  | [cell] => cell.text
  | cell :: next :: rest => cell.text ++ ',' :: renderRow (next :: rest)

/-- The lines of a text, of which the last one may lack its line end. -/
def renderLines (lines : List (List Char)) (terminated : Bool) : List Char :=
  if terminated then lines.flatMap fun line => line ++ ['\n']
  else (lines.dropLast.flatMap fun line => line ++ ['\n']) ++ lines.getLast?.getD []

end Rendering

section Fields

def limitError : Error := ⟨"field larger than field limit (131072)"⟩

variable {reader : Reader} {value : List Char}

theorem feed_cons (reader : Reader) (c : Option Char) (input : List (Option Char)) :
    feed reader (c :: input) = process reader c >>= fun next => feed next input := by
  rw [feed, List.foldlM_cons]
  rfl

theorem feed_cons_ok {next : Reader} {c : Option Char} (h : process reader c = .ok next)
    (input : List (Option Char)) : feed reader (c :: input) = feed next input := by
  rw [feed_cons, h]
  rfl

theorem feed_cons_error {error : Error} {c : Option Char} (h : process reader c = .error error)
    (input : List (Option Char)) : feed reader (c :: input) = .error error := by
  rw [feed_cons, h]
  rfl

/-- Characters that are added one by one, up to the limit. -/
theorem feed_added {state : State} (hstate : reader.state = state)
    (hlength : reader.field.length ≤ fieldLimit) (chars : List Char) (rest : List (Option Char))
    (hadd : ∀ (other : Reader) c, c ∈ chars → other.state = state →
      process other (some c) = other.add c state) :
    feed reader (chars.map some ++ rest) =
      if reader.field.length + chars.length ≤ fieldLimit then
        feed { reader with field := reader.field ++ chars } rest
      else .error limitError := by
  induction chars generalizing reader with
  | nil =>
    rw [List.map_nil, List.nil_append, List.length_nil, Nat.add_zero, if_pos hlength,
      List.append_nil]
  | cons c chars ih =>
    have hprocess := hadd reader c List.mem_cons_self hstate
    rw [List.map_cons, List.cons_append, List.length_cons]
    by_cases hfull : fieldLimit ≤ reader.field.length
    · have herror : process reader (some c) = .error limitError := by
        rw [hprocess, Reader.add, if_pos hfull]
        rfl
      rw [feed_cons_error herror, if_neg (by omega)]
    · have hok : process reader (some c) = .ok ⟨state, reader.field ++ [c], reader.fields⟩ := by
        rw [hprocess, Reader.add, if_neg hfull]
      have hlonger : (reader.field ++ [c]).length ≤ fieldLimit := by
        rw [List.length_append, List.length_singleton]
        omega
      have hnext : feed ⟨state, reader.field ++ [c], reader.fields⟩ (chars.map some ++ rest) = _ :=
        ih rfl hlonger fun other d hd => hadd other d (List.mem_cons_of_mem c hd)
      rw [feed_cons_ok hok, hnext]
      simp only [List.length_append, List.length_singleton, List.append_assoc,
        List.singleton_append]
      have hsum : reader.field.length + 1 + chars.length =
          reader.field.length + (chars.length + 1) := by omega
      rw [hsum, ← hstate]

theorem add_error {c : Char} {state : State} (h : fieldLimit ≤ reader.field.length) :
    reader.add c state = .error limitError := by
  rw [Reader.add, if_pos h]
  rfl

theorem add_ok {c : Char} {state : State} (h : ¬ fieldLimit ≤ reader.field.length) :
    reader.add c state = .ok ⟨state, reader.field ++ [c], reader.fields⟩ := by
  rw [Reader.add, if_neg h]

/-- The inside of double quotes. -/
theorem feed_escaped (hstate : reader.state = .inQuotedField)
    (hlength : reader.field.length ≤ fieldLimit) (value : List Char) (rest : List (Option Char)) :
    feed reader ((escape value).map some ++ rest) =
      if reader.field.length + value.length ≤ fieldLimit then
        feed { reader with field := reader.field ++ value } rest
      else .error limitError := by
  induction value generalizing reader with
  | nil =>
    have hempty : escape [] = [] := rfl
    rw [hempty, List.map_nil, List.nil_append, List.length_nil, Nat.add_zero, if_pos hlength,
      List.append_nil]
  | cons c value ih =>
    have hsum : reader.field.length + 1 + value.length =
        reader.field.length + (value.length + 1) := by omega
    have hafter : ∀ input, (∀ next, reader.add c .inQuotedField = .ok next →
        input = feed next ((escape value).map some ++ rest)) →
        (reader.add c .inQuotedField = .error limitError → input = .error limitError) →
        input = if reader.field.length + (value.length + 1) ≤ fieldLimit then
          feed { reader with field := reader.field ++ c :: value } rest
        else .error limitError := by
      intro input hok herror
      by_cases hfull : fieldLimit ≤ reader.field.length
      · rw [herror (add_error hfull), if_neg (by omega)]
      · have hlonger : (reader.field ++ [c]).length ≤ fieldLimit := by
          rw [List.length_append, List.length_singleton]
          omega
        have hnext : feed ⟨.inQuotedField, reader.field ++ [c], reader.fields⟩
            ((escape value).map some ++ rest) = _ := ih rfl hlonger
        rw [hok _ (add_ok hfull), hnext]
        simp only [List.length_append, List.length_singleton, List.append_assoc,
          List.singleton_append]
        rw [hsum, ← hstate]
    rw [List.length_cons]
    by_cases hquote : c = '"'
    · subst hquote
      have hescape : escape ('"' :: value) = '"' :: '"' :: escape value := rfl
      have hopen : process reader (some '"') =
          .ok { reader with state := .quoteInQuotedField } := by
        rw [process, hstate]
        rfl
      have hclose : process { reader with state := .quoteInQuotedField } (some '"') =
          reader.add '"' .inQuotedField := rfl
      rw [hescape, List.map_cons, List.map_cons, List.cons_append, List.cons_append,
        feed_cons_ok hopen]
      apply hafter
      · intro next hnext
        exact feed_cons_ok (hclose.trans hnext) _
      · intro herror
        exact feed_cons_error (hclose.trans herror) _
    · have hescape : escape (c :: value) = c :: escape value := by
        simp [escape, hquote]
      have hprocess : process reader (some c) = reader.add c .inQuotedField := by
        rw [process, hstate]
        exact if_neg hquote
      rw [hescape, List.map_cons, List.cons_append]
      apply hafter
      · intro next hnext
        exact feed_cons_ok (hprocess.trans hnext) _
      · intro herror
        exact feed_cons_error (hprocess.trans herror) _

/-- A reader at the beginning of a field. -/
def Reader.Begins (reader : Reader) : Prop :=
  (reader.state = .startField ∨ reader.state = .startRecord) ∧ reader.field = []

theorem process_begins (h : reader.Begins) {c : Char} (hc : isNewline c = false) :
    process reader (some c) = reader.beginField c := by
  rcases h.1 with hstate | hstate
  · rw [process, hstate]
  · rw [process, hstate]
    dsimp only
    rw [hc, if_neg Bool.false_ne_true]

/-- What follows a field: it ends there. -/
inductive Ends : Option Char → State → Prop where
  | comma : Ends (some ',') .startField
  | line : Ends none .startRecord

theorem process_ends {c : Option Char} {state : State} (h : Ends c state)
    (hstate : reader.state = .inField ∨ reader.state = .quoteInQuotedField) :
    process reader c = .ok (reader.save state) := by
  cases h with
  | comma => rcases hstate with hstate | hstate <;> rw [process, hstate] <;> rfl
  | line => rcases hstate with hstate | hstate <;> rw [process, hstate]

/-- A field without quotes that is not empty. -/
theorem feed_plain (h : reader.Begins) (hvalue : needsQuotes value = false) (hne : value ≠ [])
    (rest : List (Option Char)) :
    feed reader (value.map some ++ rest) =
      if value.length ≤ fieldLimit then feed ⟨.inField, value, reader.fields⟩ rest
      else .error limitError := by
  have hplain : ∀ c ∈ value, c ≠ ',' ∧ c ≠ '"' ∧ isNewline c = false := by
    intro c hc
    have hnot := List.any_eq_false.mp hvalue c hc
    simp only [Bool.or_eq_true, decide_eq_true_eq, not_or, Bool.not_eq_true] at hnot
    exact ⟨hnot.1.1, hnot.1.2, hnot.2⟩
  obtain ⟨c, chars, rfl⟩ := List.exists_cons_of_ne_nil hne
  obtain ⟨hcomma, hquote, hnewline⟩ := hplain c List.mem_cons_self
  have hroom : ¬ fieldLimit ≤ reader.field.length := by
    rw [h.2]
    decide
  have hfirst : process reader (some c) = .ok ⟨.inField, [c], reader.fields⟩ := by
    rw [process_begins h hnewline, Reader.beginField, hnewline, if_neg Bool.false_ne_true,
      if_neg hquote, if_neg hcomma, add_ok hroom, h.2, List.nil_append]
  have hadd : ∀ (other : Reader) d, d ∈ chars → other.state = .inField →
      process other (some d) = other.add d .inField := by
    intro other d hd hstate
    obtain ⟨hcomma', -, hnewline'⟩ := hplain d (List.mem_cons_of_mem c hd)
    rw [process, hstate]
    dsimp only
    rw [hnewline', if_neg Bool.false_ne_true, if_neg hcomma']
  have hone : ([c] : List Char).length ≤ fieldLimit := by
    rw [List.length_singleton]
    decide
  have hrest : feed ⟨.inField, [c], reader.fields⟩ (chars.map some ++ rest) = _ :=
    feed_added rfl hone chars rest hadd
  have hsum : ([c] : List Char).length + chars.length = (c :: chars).length := by
    rw [List.length_singleton, List.length_cons]
    omega
  rw [List.map_cons, List.cons_append, feed_cons_ok hfirst, hrest]
  dsimp only
  rw [hsum, List.singleton_append]

theorem feed_quoted (h : reader.Begins) (value : List Char) (rest : List (Option Char)) :
    feed reader (('"' :: (escape value ++ ['"'])).map some ++ rest) =
      if value.length ≤ fieldLimit then feed ⟨.quoteInQuotedField, value, reader.fields⟩ rest
      else .error limitError := by
  have hopen : process reader (some '"') = .ok { reader with state := .inQuotedField } :=
    process_begins h rfl
  have hnone : ({ reader with state := .inQuotedField } : Reader).field.length ≤ fieldLimit := by
    dsimp only
    rw [h.2]
    decide
  have hinside : feed { reader with state := .inQuotedField }
      ((escape value).map some ++ (some '"' :: rest)) = _ := feed_escaped rfl hnone value _
  rw [List.map_cons, List.cons_append, feed_cons_ok hopen, List.map_append, List.append_assoc,
    List.map_singleton, List.singleton_append, hinside]
  dsimp only
  rw [h.2, List.length_nil, Nat.zero_add, List.nil_append]
  split
  · exact feed_cons_ok rfl rest
  · rfl

/-- A rendered field up to its end. -/
theorem feed_cell (h : reader.Begins) (cell : Cell) {c : Option Char} {state : State}
    (hends : Ends c state)
    (hempty : reader.state = .startField ∨ cell.text ≠ [] ∨ c = some ',')
    (rest : List (Option Char)) :
    feed reader (cell.text.map some ++ c :: rest) =
      if cell.value.length ≤ fieldLimit then
        feed ⟨state, [], reader.fields ++ [cell.value]⟩ rest
      else .error limitError := by
  by_cases hquoted : cell.quoted = true
  · have htext : cell.text = '"' :: (escape cell.value ++ ['"']) := if_pos hquoted
    rw [htext, feed_quoted h]
    split
    · exact feed_cons_ok (process_ends hends (.inr rfl)) rest
    · rfl
  · have htext : cell.text = cell.value := if_neg hquoted
    have hvalue : needsQuotes cell.value = false := cell.valid.resolve_left hquoted
    rw [htext] at hempty ⊢
    by_cases hnone : cell.value = []
    · have hprocess : process reader c = .ok ⟨state, [], reader.fields ++ [[]]⟩ := by
        obtain ⟨hstate, hfield⟩ := h
        have hsave : reader.save state = ⟨state, [], reader.fields ++ [[]]⟩ := by
          rw [Reader.save, hfield]
        rw [← hsave]
        cases hends with
        | comma => rw [process_begins ⟨hstate, hfield⟩ rfl]; rfl
        | line =>
          have hstart : reader.state = .startField := by
            rcases hempty with hstart | hne | hcomma
            · exact hstart
            · exact absurd hnone hne
            · cases hcomma
          rw [process, hstart]
      rw [hnone, List.map_nil, List.nil_append, feed_cons_ok hprocess, List.length_nil,
        if_pos (Nat.zero_le _)]
    · rw [feed_plain h hvalue hnone]
      split
      · exact feed_cons_ok (process_ends hends (.inl rfl)) rest
      · rfl

end Fields

section Records

/-- No field of a record is too long. -/
def RowFits (row : List Cell) : Prop := ∀ cell ∈ row, cell.value.length ≤ fieldLimit

instance : DecidablePred RowFits := fun _ => List.decidableBAll _ _

/-- The record that a line is read as. -/
def recordOf (row : List Cell) : List (List Char) :=
  if renderRow row = [] then [] else row.map Cell.value

theorem feed_row {row : List Cell} (hrow : row ≠ []) {reader : Reader} (h : reader.Begins)
    (hempty : reader.state = .startField ∨ renderRow row ≠ []) :
    feed reader (ended (renderRow row)) =
      if RowFits row then .ok ⟨.startRecord, [], reader.fields ++ row.map Cell.value⟩
      else .error limitError := by
  induction row generalizing reader with
  | nil => exact absurd rfl hrow
  | cons cell rest ih =>
    cases rest with
    | nil =>
      have hempty' : reader.state = .startField ∨ cell.text ≠ [] ∨
          (none : Option Char) = some ',' := hempty.imp_right .inl
      have hcell := feed_cell h cell .line hempty' []
      have hfits : RowFits [cell] ↔ cell.value.length ≤ fieldLimit := by simp [RowFits]
      rw [renderRow, ended, hcell]
      simp only [hfits]
      rfl
    | cons next rest =>
      have hcell := feed_cell h cell .comma (.inr (.inr rfl)) (ended (renderRow (next :: rest)))
      have hbegins : Reader.Begins ⟨.startField, [], reader.fields ++ [cell.value]⟩ :=
        ⟨.inl rfl, rfl⟩
      have hrest := ih (List.cons_ne_nil next rest) hbegins (.inl rfl)
      have hfits : RowFits (cell :: next :: rest) ↔
          cell.value.length ≤ fieldLimit ∧ RowFits (next :: rest) := List.forall_mem_cons
      have htext : ended (renderRow (cell :: next :: rest)) =
          cell.text.map some ++ some ',' :: ended (renderRow (next :: rest)) := by
        simp [renderRow, ended]
      rw [htext, hcell]
      by_cases hlength : cell.value.length ≤ fieldLimit
      · rw [if_pos hlength, hrest]
        simp only [hfits, hlength, true_and, List.append_assoc, List.map_cons,
          List.singleton_append]
      · rw [if_neg hlength, if_neg fun hall => hlength (hfits.mp hall).1]

theorem rowFits_of_empty {row : List Cell} (hrow : row ≠ []) (hempty : renderRow row = []) :
    RowFits row := by
  obtain ⟨cell, rest, rfl⟩ := List.exists_cons_of_ne_nil hrow
  cases rest with
  | nil =>
    intro other hother
    obtain rfl := List.mem_singleton.mp hother
    have hvalue : other.value = [] := by
      by_cases hquoted : other.quoted = true
      · rw [renderRow, Cell.text, if_pos hquoted] at hempty
        cases hempty
      · rw [renderRow, Cell.text, if_neg hquoted] at hempty
        exact hempty
    rw [hvalue]
    exact Nat.zero_le _
  | cons next rest =>
    have hlength := congrArg List.length hempty
    simp [renderRow] at hlength

theorem feed_start {row : List Cell} (hrow : row ≠ []) (hfits : RowFits row) :
    feed .start (ended (renderRow row)) = .ok ⟨.startRecord, [], recordOf row⟩ := by
  by_cases hempty : renderRow row = []
  · rw [recordOf, if_pos hempty, hempty]
    rfl
  · rw [feed_row hrow ⟨.inr rfl, rfl⟩ (.inr hempty), if_pos hfits, recordOf, if_neg hempty]
    rfl

theorem records_cons {row : List Cell} (hrow : row ≠ []) (hfits : RowFits row)
    (lines : List (List Char)) : records .start (renderRow row :: lines) =
      Trace.andThen ⟨[recordOf row], .ok ()⟩ (records .start lines) := by
  rw [records, feed_start hrow hfits]
  exact if_pos rfl

/-- Rendered records whose fields are not too long are read as they are. -/
theorem records_rows {rows : List (List Cell)} (hrows : ∀ row ∈ rows, row ≠ [])
    (hfits : ∀ row ∈ rows, RowFits row) :
    records .start (rows.map renderRow) = ⟨rows.map recordOf, .ok ()⟩ := by
  induction rows with
  | nil => rfl
  | cons row rows ih =>
    have hrest := ih (fun other hother => hrows other (List.mem_cons_of_mem row hother))
      (fun other hother => hfits other (List.mem_cons_of_mem row hother))
    rw [List.map_cons, records_cons (hrows row List.mem_cons_self) (hfits row List.mem_cons_self),
      hrest]
    rfl

/-- A field that is too long ends the reading with an error. -/
theorem records_rows_error {rows : List (List Cell)} (hrows : ∀ row ∈ rows, row ≠ [])
    (hlong : ∃ row ∈ rows, ¬ RowFits row) :
    (records .start (rows.map renderRow)).outcome = .error limitError := by
  induction rows with
  | nil =>
    obtain ⟨row, hrow, -⟩ := hlong
    cases hrow
  | cons row rows ih =>
    by_cases hfits : RowFits row
    · have hlater : ∃ other ∈ rows, ¬ RowFits other := by
        obtain ⟨other, hother, hnot⟩ := hlong
        rcases List.mem_cons.mp hother with rfl | hin
        · exact absurd hfits hnot
        · exact ⟨other, hin, hnot⟩
      have hrest := ih (fun other hother => hrows other (List.mem_cons_of_mem row hother)) hlater
      rw [List.map_cons, records_cons (hrows row List.mem_cons_self) hfits, Trace.andThen_of_ok rfl]
      exact hrest
    · have hempty : renderRow row ≠ [] := fun hempty =>
        hfits (rowFits_of_empty (hrows row List.mem_cons_self) hempty)
      have hfeed : feed .start (ended (renderRow row)) = .error limitError := by
        rw [feed_row (hrows row List.mem_cons_self) ⟨.inr rfl, rfl⟩ (.inr hempty), if_neg hfits]
      rw [List.map_cons, records, hfeed]
      rfl

theorem unbroken_renderRow {row : List Cell} (h : ∀ cell ∈ row, Unbroken cell.value) :
    Unbroken (renderRow row) := by
  have hescape : ∀ value, Unbroken value → Unbroken (escape value) := by
    intro value hvalue c hc
    obtain ⟨d, hd, hin⟩ := List.mem_flatMap.mp hc
    split at hin
    next hquote =>
      have hc' : c = '"' := by simpa using hin
      rw [hc']
      decide
    · obtain rfl := List.mem_singleton.mp hin
      exact hvalue c hd
  have hcell : ∀ cell : Cell, Unbroken cell.value → Unbroken cell.text := by
    intro cell hvalue
    unfold Cell.text
    split
    · intro c hc
      rcases List.mem_cons.mp hc with rfl | hin
      · decide
      · rcases List.mem_append.mp hin with hin | hlast
        · exact hescape _ hvalue c hin
        · obtain rfl := List.mem_singleton.mp hlast
          decide
    · exact hvalue
  induction row with
  | nil => exact nofun
  | cons cell rest ih =>
    have hfirst := hcell cell (h cell List.mem_cons_self)
    cases rest with
    | nil => exact hfirst
    | cons next rest =>
      have hrest := ih fun other hother => h other (List.mem_cons_of_mem cell hother)
      intro c hc
      rcases List.mem_append.mp hc with hin | hlater
      · exact hfirst c hin
      · rcases List.mem_cons.mp hlater with rfl | hin
        · decide
        · exact hrest c hin

/-- The lines of rendered records, without a last one that is empty and lacks its line end. -/
theorem splitlines_renderLines {rows : List (List Cell)} (hne : rows ≠ [])
    (h : ∀ row ∈ rows, ∀ cell ∈ row, Unbroken cell.value) (terminated : Bool) :
    ∃ kept, splitlines (renderLines (rows.map renderRow) terminated) = kept.map renderRow ∧
      (kept = rows ∨ ∃ last, rows = kept ++ [last] ∧ renderRow last = []) := by
  have hlines : ∀ some : List (List Cell), (∀ row ∈ some, row ∈ rows) →
      ∀ line ∈ some.map renderRow, Unbroken line := by
    intro some hsome line hline
    obtain ⟨row, hrow, rfl⟩ := List.mem_map.mp hline
    exact unbroken_renderRow (h row (hsome row hrow))
  cases terminated with
  | true =>
    refine ⟨rows, ?_, .inl rfl⟩
    have hsplit := splitlines_lines (hlines rows fun _ hrow => hrow) []
    rw [List.append_nil] at hsplit
    rw [renderLines, if_pos rfl, hsplit]
    exact List.append_nil _
  | false =>
    obtain ⟨before, last, hsplit⟩ : ∃ before last, rows = before ++ [last] :=
      ⟨rows.dropLast, rows.getLast hne, (List.dropLast_append_getLast hne).symm⟩
    have hbefore : ∀ row ∈ before, row ∈ rows := by
      intro row hrow
      rw [hsplit]
      exact List.mem_append_left _ hrow
    have hlast : Unbroken (renderRow last) := by
      apply unbroken_renderRow
      intro cell hcell
      refine h last ?_ cell hcell
      rw [hsplit]
      exact List.mem_append_right _ List.mem_cons_self
    have htext : renderLines (rows.map renderRow) false =
        (before.map renderRow).flatMap (fun line => line ++ ['\n']) ++ renderRow last := by
      rw [renderLines, if_neg Bool.false_ne_true, hsplit, List.map_append, List.map_singleton,
        List.dropLast_concat, List.getLast?_concat, Option.getD_some]
    rw [htext, splitlines_lines (hlines before hbefore), splitlines_last hlast]
    by_cases hempty : renderRow last = []
    · rw [if_pos hempty, List.append_nil]
      exact ⟨before, rfl, .inr ⟨last, hsplit, hempty⟩⟩
    · rw [if_neg hempty]
      refine ⟨rows, ?_, .inl rfl⟩
      rw [hsplit, List.map_append, List.map_singleton]

end Records

end CsvText
