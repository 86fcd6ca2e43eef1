import Dander.PortableSql

/-!
# Null orders of portable queries

The tokens of a query are read as groups in parentheses and as order clauses with their items. The
check of null orders looks for the words anywhere among the tokens behind `ORDER BY` up to the next
comma or the end of the clause. So it requires the null order of each item exactly if no item
without one contains the words otherwise, or stands behind a keyword that seems to end the clause.
-/
namespace Dander.Transform

open Execution

section Syntax

def TokenType.isPlain : TokenType → Bool
  | .lParen | .rParen | .orderBy => false
  | _ => true

/-- `NULLS FIRST` or `NULLS LAST` -/
structure NullOrder (upper : String → String) where
  nulls : String
  order : String
  valid : upper nulls = "NULLS" ∧ (upper order = "FIRST" ∨ upper order = "LAST")

mutual

/-- What tokens are read as: commas and other tokens, groups in parentheses and order clauses. -/
inductive Piece (upper : String → String) where
  | token (token : Token) (plain : token.tokenType.isPlain = true)
  | group (pieces : List (Piece upper))
  | orderBy (text : String) (first : OrderItem upper) (rest : List (OrderItem upper))

/-- An item of an order clause, with its own null order or without. -/
inductive OrderItem (upper : String → String) where
  | item (expression : List (Operand upper)) (nullOrder : Option (NullOrder upper))

/-- What an item is made of. A comma would end it. -/
inductive Operand (upper : String → String) where
  | token (token : Token) (plain : token.tokenType.isPlain = true)
      (within : token.tokenType ≠ .comma)
  | group (pieces : List (Piece upper))

end

variable {upper : String → String}

def OrderItem.nullOrder : OrderItem upper → Option (NullOrder upper)
  | .item _ nullOrder => nullOrder

def NullOrder.tokens (nullOrder : NullOrder upper) : List Token :=
  [⟨.other, nullOrder.nulls⟩, ⟨.other, nullOrder.order⟩]

def openParen : Token := ⟨.lParen, "("⟩

def closeParen : Token := ⟨.rParen, ")"⟩

def separator : Token := ⟨.comma, ","⟩

mutual

def pieceTokens : Piece upper → List Token
  | .token token _ => [token]
  | .group pieces => openParen :: (piecesTokens pieces ++ [closeParen])
  | .orderBy text first rest => ⟨.orderBy, text⟩ :: (itemTokens first ++ laterTokens rest)

def piecesTokens : List (Piece upper) → List Token
  | [] => []
  | piece :: rest => pieceTokens piece ++ piecesTokens rest

def itemTokens : OrderItem upper → List Token
  | .item expression nullOrder =>
    operandsTokens expression ++ (nullOrder.map NullOrder.tokens).getD []

/-- The items behind the first one, each behind a comma. -/
def laterTokens : List (OrderItem upper) → List Token
  | [] => []
  | item :: rest => separator :: (itemTokens item ++ laterTokens rest)

def operandTokens : Operand upper → List Token
  | .token token _ _ => [token]
  | .group pieces => openParen :: (piecesTokens pieces ++ [closeParen])

def operandsTokens : List (Operand upper) → List Token
  | [] => []
  | operand :: rest => operandTokens operand ++ operandsTokens rest

end

/-- An order clause, what stands behind it on its level, and the parenthesis that closes the level,
if it is within one. -/
structure OrderClause (upper : String → String) where
  first : OrderItem upper
  rest : List (OrderItem upper)
  behind : List (Piece upper)
  close : List Token

def OrderClause.items (clause : OrderClause upper) : List (OrderItem upper) :=
  clause.first :: clause.rest

mutual

/-- The order clauses of a level and of all groups on it. -/
def clauses (close : List Token) : List (Piece upper) → List (OrderClause upper)
  | [] => []
  | piece :: behind => clausesOf close behind piece ++ clauses close behind

def clausesOf (close : List Token) (behind : List (Piece upper)) :
    Piece upper → List (OrderClause upper)
  | .token _ _ => []
  | .group pieces => clauses [closeParen] pieces
  | .orderBy _ first rest =>
    ⟨first, rest, behind, close⟩ :: (itemClauses first ++ itemsClauses rest)

def itemClauses : OrderItem upper → List (OrderClause upper)
  | .item expression _ => operandsClauses expression

def itemsClauses : List (OrderItem upper) → List (OrderClause upper)
  | [] => []
  | item :: rest => itemClauses item ++ itemsClauses rest

def operandClauses : Operand upper → List (OrderClause upper)
  | .token _ _ _ => []
  | .group pieces => clauses [closeParen] pieces

def operandsClauses : List (Operand upper) → List (OrderClause upper)
  | [] => []
  | operand :: rest => operandClauses operand ++ operandsClauses rest

end

end Syntax

section Segments

variable {upper : String → String}

/-- What stands on the level of an order clause: tokens, and the tokens of whole groups. -/
inductive Mark where
  | token (token : Token)
  | group (tokens : List Token)

def Mark.tokens : Mark → List Token
  | .token single => [single]
  | .group tokens => tokens

def operandMark : Operand upper → Mark
  | .token token _ _ => .token token
  | .group pieces => .group (openParen :: (piecesTokens pieces ++ [closeParen]))

def itemMarks : OrderItem upper → List Mark
  | .item expression nullOrder =>
    expression.map operandMark ++ ((nullOrder.map NullOrder.tokens).getD []).map .token

def laterMarks (rest : List (OrderItem upper)) : List Mark :=
  rest.flatMap fun item => .token separator :: itemMarks item

def pieceMarks : Piece upper → List Mark
  | .token token _ => [.token token]
  | .group pieces => [.group (openParen :: (piecesTokens pieces ++ [closeParen]))]
  | .orderBy text first rest => .token ⟨.orderBy, text⟩ :: (itemMarks first ++ laterMarks rest)

def OrderClause.marks (clause : OrderClause upper) : List Mark :=
  itemMarks clause.first ++ laterMarks clause.rest ++ clause.behind.flatMap pieceMarks

/-- The tokens between commas, up to a keyword that ends an order clause or to the end. -/
def segments (close : List Token) : List Token → List Mark → List (List Token)
  | segment, [] => [segment ++ close]
  | segment, .token token :: rest =>
    if token.tokenType.isOrderTerminator then [segment]
    else if token.tokenType = .comma then segment :: segments close [] rest
    else segments close (segment ++ [token]) rest
  | segment, .group tokens :: rest => segments close (segment ++ tokens) rest

def OrderClause.segments (clause : OrderClause upper) : List (List Token) :=
  Transform.segments clause.close [] clause.marks

/-- The check does not see that an item has no null order: it reaches no segment of the item, or one
in which the words stand otherwise. -/
def Overlooked (clause : OrderClause upper) (index : ℕ) : Prop :=
  ∀ segment, clause.segments[index]? = some segment →
    mentionsNulls (segment.map fun token => upper token.text) = true

end Segments

section Scans

variable {tools : SqlTools} {depth current : ℤ} {segment rest : List Token} {token : Token}

theorem deepens_of_plain (hplain : token.tokenType.isPlain = true) :
    token.tokenType.deepens = 0 := by
  cases htype : token.tokenType <;> simp_all [TokenType.isPlain, TokenType.deepens]

/-- Deeper tokens belong to the segment. -/
theorem requireNullClauses_deep (hdeep : depth < current) :
    requireNullClauses tools depth current segment (token :: rest) =
      requireNullClauses tools depth (current + token.tokenType.deepens) (segment ++ [token])
        rest := by
  have hlt : ¬ current < depth := by omega
  have hne : current ≠ depth := by omega
  simp [requireNullClauses, hlt, hne]

theorem requireNullClauses_plain (hplain : token.tokenType.isPlain = true)
    (hdeep : depth < current) :
    requireNullClauses tools depth current segment (token :: rest) =
      requireNullClauses tools depth current (segment ++ [token]) rest := by
  rw [requireNullClauses_deep hdeep, deepens_of_plain hplain, Int.add_zero]

mutual

theorem deep_piece : (piece : Piece tools.upper) → ∀ (current : ℤ) (segment rest : List Token),
    depth < current → requireNullClauses tools depth current segment (pieceTokens piece ++ rest) =
      requireNullClauses tools depth current (segment ++ pieceTokens piece) rest
  | .token token plain, current, segment, rest, hdeep => requireNullClauses_plain plain hdeep
  | .group pieces, current, segment, rest, hdeep =>
    deep_group pieces current segment rest (by omega)
  | .orderBy text first later, current, segment, rest, hdeep => by
    have hsame : current + (Token.mk .orderBy text).tokenType.deepens = current :=
      Int.add_zero current
    simp only [pieceTokens, List.cons_append, List.append_assoc]
    rw [requireNullClauses_deep hdeep, hsame, deep_item first _ _ _ hdeep,
      deep_later later _ _ _ hdeep]
    simp

/-- A group that stands at the depth of the clause or deeper. -/
theorem deep_group : (pieces : List (Piece tools.upper)) →
    ∀ (current : ℤ) (segment rest : List Token), depth ≤ current →
      requireNullClauses tools depth current segment
          (openParen :: (piecesTokens pieces ++ [closeParen]) ++ rest) =
        requireNullClauses tools depth current
          (segment ++ openParen :: (piecesTokens pieces ++ [closeParen])) rest
  | pieces, current, segment, rest, hdeep => by
    have hopen : requireNullClauses tools depth current segment
          (openParen :: (piecesTokens pieces ++ [closeParen]) ++ rest) =
        requireNullClauses tools depth (current + 1) (segment ++ [openParen])
          (piecesTokens pieces ++ (closeParen :: rest)) := by
      have hlt : ¬ current < depth := by omega
      simp [requireNullClauses, hlt, openParen, TokenType.isOrderTerminator, TokenType.deepens]
    have hback : current + 1 + closeParen.tokenType.deepens = current :=
      Int.add_neg_cancel_right current 1
    rw [hopen, deep_pieces pieces _ _ _ (by omega), requireNullClauses_deep (by omega), hback]
    simp

theorem deep_pieces : (pieces : List (Piece tools.upper)) →
    ∀ (current : ℤ) (segment rest : List Token), depth < current →
      requireNullClauses tools depth current segment (piecesTokens pieces ++ rest) =
        requireNullClauses tools depth current (segment ++ piecesTokens pieces) rest
  | [], current, segment, rest, hdeep => by simp [piecesTokens]
  | piece :: others, current, segment, rest, hdeep => by
    simp only [piecesTokens, List.append_assoc]
    rw [deep_piece piece _ _ _ hdeep, deep_pieces others _ _ _ hdeep, List.append_assoc]

theorem deep_item : (item : OrderItem tools.upper) →
    ∀ (current : ℤ) (segment rest : List Token), depth < current →
      requireNullClauses tools depth current segment (itemTokens item ++ rest) =
        requireNullClauses tools depth current (segment ++ itemTokens item) rest
  | .item expression nullOrder, current, segment, rest, hdeep => by
    simp only [itemTokens, List.append_assoc]
    rw [deep_operands expression _ _ _ hdeep]
    cases nullOrder with
    | none => simp
    | some nullOrder =>
      simp only [Option.map_some, Option.getD_some, NullOrder.tokens, List.cons_append,
        List.nil_append]
      rw [requireNullClauses_plain rfl hdeep, requireNullClauses_plain rfl hdeep]
      simp

theorem deep_later : (later : List (OrderItem tools.upper)) →
    ∀ (current : ℤ) (segment rest : List Token), depth < current →
      requireNullClauses tools depth current segment (laterTokens later ++ rest) =
        requireNullClauses tools depth current (segment ++ laterTokens later) rest
  | [], current, segment, rest, hdeep => by simp [laterTokens]
  | item :: others, current, segment, rest, hdeep => by
    simp only [laterTokens, List.cons_append, List.append_assoc]
    rw [requireNullClauses_plain rfl hdeep, deep_item item _ _ _ hdeep,
      deep_later others _ _ _ hdeep]
    simp

theorem deep_operand : (operand : Operand tools.upper) →
    ∀ (current : ℤ) (segment rest : List Token), depth < current →
      requireNullClauses tools depth current segment (operandTokens operand ++ rest) =
        requireNullClauses tools depth current (segment ++ operandTokens operand) rest
  | .token token plain _, current, segment, rest, hdeep => requireNullClauses_plain plain hdeep
  | .group pieces, current, segment, rest, hdeep =>
    deep_group pieces current segment rest (by omega)

theorem deep_operands : (operands : List (Operand tools.upper)) →
    ∀ (current : ℤ) (segment rest : List Token), depth < current →
      requireNullClauses tools depth current segment (operandsTokens operands ++ rest) =
        requireNullClauses tools depth current (segment ++ operandsTokens operands) rest
  | [], current, segment, rest, hdeep => by simp [operandsTokens]
  | operand :: others, current, segment, rest, hdeep => by
    simp only [operandsTokens, List.append_assoc]
    rw [deep_operand operand _ _ _ hdeep, deep_operands others _ _ _ hdeep, List.append_assoc]

end

end Scans

section Levels

variable {tools : SqlTools} {depth : ℤ} {segment close more : List Token} {marks : List Mark}

/-- Nothing is behind the level, or the parenthesis that closes it. -/
def Closed (close more : List Token) : Prop :=
  (close = [] ∧ more = []) ∨ close = [closeParen]

/-- The check stays on the level, and takes a group as a whole. -/
def Mark.Flat (tools : SqlTools) (depth : ℤ) : Mark → Prop
  | .token single => single.tokenType.deepens = 0
  | .group tokens => ∀ segment rest, requireNullClauses tools depth depth segment (tokens ++ rest) =
      requireNullClauses tools depth depth (segment ++ tokens) rest

theorem flat_itemMarks {item : OrderItem tools.upper} :
    ∀ mark ∈ itemMarks item, mark.Flat tools depth := by
  obtain ⟨expression, nullOrder⟩ := item
  intro mark hmark
  rcases List.mem_append.mp hmark with hoperand | hnull
  · obtain ⟨operand, -, rfl⟩ := List.mem_map.mp hoperand
    cases operand with
    | token token plain within => exact deepens_of_plain plain
    | group pieces => exact fun segment rest => deep_group pieces depth segment rest le_rfl
  · obtain ⟨token, htoken, rfl⟩ := List.mem_map.mp hnull
    cases nullOrder with
    | none => cases htoken
    | some nullOrder =>
      simp only [Option.map_some, Option.getD_some, NullOrder.tokens, List.mem_cons,
        List.not_mem_nil, or_false] at htoken
      rcases htoken with rfl | rfl <;> rfl

theorem flat_laterMarks {later : List (OrderItem tools.upper)} :
    ∀ mark ∈ laterMarks later, mark.Flat tools depth := by
  intro mark hmark
  obtain ⟨item, -, hitem⟩ := List.mem_flatMap.mp hmark
  rcases List.mem_cons.mp hitem with rfl | hin
  · rfl
  · exact flat_itemMarks mark hin

theorem flat_pieceMarks {piece : Piece tools.upper} :
    ∀ mark ∈ pieceMarks piece, mark.Flat tools depth := by
  intro mark hmark
  cases piece with
  | token token plain =>
    obtain rfl := List.mem_singleton.mp hmark
    exact deepens_of_plain plain
  | group pieces =>
    obtain rfl := List.mem_singleton.mp hmark
    exact fun segment rest => deep_group pieces depth segment rest le_rfl
  | orderBy text first later =>
    rcases List.mem_cons.mp hmark with rfl | hitems
    · rfl
    · rcases List.mem_append.mp hitems with hfirst | hlater
      · exact flat_itemMarks mark hfirst
      · exact flat_laterMarks mark hlater

theorem flat_marks {clause : OrderClause tools.upper} :
    ∀ mark ∈ clause.marks, mark.Flat tools depth := by
  intro mark hmark
  rcases List.mem_append.mp hmark with hitems | hbehind
  · rcases List.mem_append.mp hitems with hfirst | hlater
    · exact flat_itemMarks mark hfirst
    · exact flat_laterMarks mark hlater
  · obtain ⟨piece, -, hpiece⟩ := List.mem_flatMap.mp hbehind
    exact flat_pieceMarks mark hpiece

/-- The check of a clause checks each of its segments. -/
theorem requireNullClause_of_segments (hflat : ∀ mark ∈ marks, mark.Flat tools depth)
    (hclosed : Closed close more)
    (h : requireNullClauses tools depth depth segment
      (marks.flatMap Mark.tokens ++ (close ++ more)) = .ok ()) :
    ∀ checked ∈ segments close segment marks, requireNullClause tools checked = .ok () := by
  induction marks generalizing segment with
  | nil =>
    intro checked hchecked
    obtain rfl := List.mem_singleton.mp hchecked
    rcases hclosed with ⟨rfl, rfl⟩ | rfl
    · simpa [requireNullClauses] using h
    · have hlt : depth + -1 < depth := by omega
      cases more with
      | nil =>
        simpa [requireNullClauses, closeParen, TokenType.isOrderTerminator] using h
      | cons token rest =>
        simpa [requireNullClauses, closeParen, TokenType.isOrderTerminator, TokenType.deepens,
          hlt] using h
  | cons mark rest ih =>
    have hrest := fun mark hmark => hflat mark (List.mem_cons_of_mem _ hmark)
    cases mark with
    | token single =>
      have hlevel : single.tokenType.deepens = 0 := hflat _ List.mem_cons_self
      simp only [List.flatMap_cons, Mark.tokens, List.cons_append] at h
      unfold requireNullClauses at h
      rw [if_neg (lt_irrefl depth), hlevel, Int.add_zero] at h
      intro checked hchecked
      unfold segments at hchecked
      by_cases hends : single.tokenType.isOrderTerminator = true
      · rw [if_pos hends] at hchecked
        rw [if_pos ⟨rfl, hends⟩] at h
        obtain rfl := List.mem_singleton.mp hchecked
        exact h
      · rw [if_neg hends] at hchecked
        rw [if_neg (fun hboth => hends hboth.2)] at h
        by_cases hcomma : single.tokenType = .comma
        · rw [if_pos hcomma] at hchecked
          rw [if_pos ⟨rfl, hcomma⟩] at h
          obtain ⟨_, hfirst, hlater⟩ := bind_eq_ok h
          rcases List.mem_cons.mp hchecked with rfl | hin
          · exact hfirst
          · exact ih hrest hlater checked hin
        · rw [if_neg hcomma] at hchecked
          rw [if_neg (fun hboth => hcomma hboth.2)] at h
          exact ih hrest h checked hchecked
    | group tokens =>
      have hskip := hflat _ List.mem_cons_self segment
        (rest.flatMap Mark.tokens ++ (close ++ more))
      rw [List.flatMap_cons, List.append_assoc] at h
      exact ih hrest (hskip ▸ h)

end Levels

section Tokens

variable {upper : String → String}

theorem operandsTokens_eq (operands : List (Operand upper)) :
    operandsTokens operands = (operands.map operandMark).flatMap Mark.tokens := by
  induction operands with
  | nil => rfl
  | cons operand rest ih =>
    rw [operandsTokens, ih, List.map_cons, List.flatMap_cons]
    cases operand with
    | token => rfl
    | group pieces => rfl

theorem itemTokens_eq (item : OrderItem upper) :
    itemTokens item = (itemMarks item).flatMap Mark.tokens := by
  obtain ⟨expression, nullOrder⟩ := item
  rw [itemTokens, itemMarks, operandsTokens_eq, List.flatMap_append]
  congr 1
  cases nullOrder <;> rfl

theorem laterTokens_eq (later : List (OrderItem upper)) :
    laterTokens later = (laterMarks later).flatMap Mark.tokens := by
  induction later with
  | nil => rfl
  | cons item rest ih =>
    rw [laterTokens, ih, itemTokens_eq]
    simp [laterMarks, Mark.tokens]

theorem piecesTokens_eq (pieces : List (Piece upper)) :
    piecesTokens pieces = (pieces.flatMap pieceMarks).flatMap Mark.tokens := by
  induction pieces with
  | nil => rfl
  | cons piece rest ih =>
    rw [piecesTokens, ih, List.flatMap_cons, List.flatMap_append]
    congr 1
    cases piece with
    | token => rfl
    | group pieces => simp [pieceTokens, pieceMarks, Mark.tokens]
    | orderBy text first later =>
      simp [pieceTokens, pieceMarks, Mark.tokens, itemTokens_eq, laterTokens_eq]

/-- The tokens behind the keyword of a clause. -/
theorem marks_tokens (clause : OrderClause upper) :
    itemTokens clause.first ++ (laterTokens clause.rest ++ piecesTokens clause.behind) =
      clause.marks.flatMap Mark.tokens := by
  rw [itemTokens_eq, laterTokens_eq, piecesTokens_eq, OrderClause.marks, List.flatMap_append,
    List.flatMap_append, List.append_assoc]

end Tokens

section Passes

variable {tools : SqlTools} {token : Token} {rest : List Token}

/-- The check of the tokens from some place on has passed. -/
def Passes (tools : SqlTools) (tokens : List Token) : Prop :=
  ∃ depth, requireNullOrderings tools depth tokens = .ok ()

theorem Passes.tail (h : Passes tools (token :: rest)) : Passes tools rest := by
  obtain ⟨depth, h⟩ := h
  unfold requireNullOrderings at h
  by_cases horder : token.tokenType = .orderBy
  · rw [if_pos horder] at h
    obtain ⟨_, -, hrest⟩ := bind_eq_ok h
    exact ⟨_, hrest⟩
  · rw [if_neg horder] at h
    exact ⟨_, h⟩

theorem Passes.orderBy {text : String} (h : Passes tools (⟨.orderBy, text⟩ :: rest)) :
    ∃ depth, requireNullClauses tools depth depth [] rest = .ok () := by
  obtain ⟨depth, h⟩ := h
  unfold requireNullOrderings at h
  obtain ⟨_, hclause, -⟩ := bind_eq_ok h
  exact ⟨depth, hclause⟩

/-- Each segment of the clause contains a null order. -/
def Checked (clause : OrderClause tools.upper) : Prop :=
  ∀ segment ∈ clause.segments, requireNullClause tools segment = .ok ()

theorem checked_of_passes {clause : OrderClause tools.upper} {text : String} {more : List Token}
    (hclosed : Closed clause.close more)
    (h : Passes tools (⟨.orderBy, text⟩ :: (itemTokens clause.first ++
      (laterTokens clause.rest ++ (piecesTokens clause.behind ++ (clause.close ++ more)))))) :
    Checked clause := by
  obtain ⟨depth, hclause⟩ := h.orderBy
  rw [← List.append_assoc (laterTokens _), ← List.append_assoc (itemTokens _),
    marks_tokens] at hclause
  exact requireNullClause_of_segments flat_marks hclosed hclause

mutual

theorem passes_pieces : (pieces : List (Piece tools.upper)) → ∀ (close more : List Token),
    Closed close more → Passes tools (piecesTokens pieces ++ (close ++ more)) →
      (∀ clause ∈ clauses close pieces, Checked clause) ∧ Passes tools (close ++ more)
  | [], close, more, hclosed, h => ⟨fun _ hnone => (by cases hnone), h⟩
  | piece :: behind, close, more, hclosed, h => by
    rw [piecesTokens, List.append_assoc] at h
    obtain ⟨hpiece, hbehind⟩ := passes_piece piece behind close more hclosed h
    obtain ⟨hlater, hmore⟩ := passes_pieces behind close more hclosed hbehind
    refine ⟨?_, hmore⟩
    intro clause hclause
    rcases List.mem_append.mp hclause with hin | hin
    · exact hpiece clause hin
    · exact hlater clause hin

theorem passes_piece : (piece : Piece tools.upper) → ∀ (behind : List (Piece tools.upper))
    (close more : List Token), Closed close more →
      Passes tools (pieceTokens piece ++ (piecesTokens behind ++ (close ++ more))) →
        (∀ clause ∈ clausesOf close behind piece, Checked clause) ∧
          Passes tools (piecesTokens behind ++ (close ++ more))
  | .token _ _, behind, close, more, hclosed, h => ⟨fun _ hnone => (by cases hnone), h.tail⟩
  | .group pieces, behind, close, more, hclosed, h =>
    passes_group pieces (piecesTokens behind ++ (close ++ more)) h
  | .orderBy text first later, behind, close, more, hclosed, h => by
    simp only [pieceTokens, List.cons_append, List.append_assoc] at h
    have hchecked : @Checked tools ⟨first, later, behind, close⟩ :=
      checked_of_passes hclosed h
    obtain ⟨hfirst, hrest⟩ := passes_item first _ h.tail
    obtain ⟨hlater, hbehind⟩ := passes_later later _ hrest
    refine ⟨?_, hbehind⟩
    intro clause hclause
    rcases List.mem_cons.mp hclause with rfl | hin
    · exact hchecked
    · rcases List.mem_append.mp hin with hin | hin
      · exact hfirst clause hin
      · exact hlater clause hin

theorem passes_group : (pieces : List (Piece tools.upper)) → ∀ (rest : List Token),
    Passes tools (openParen :: (piecesTokens pieces ++ [closeParen]) ++ rest) →
      (∀ clause ∈ clauses [closeParen] pieces, Checked clause) ∧ Passes tools rest
  | pieces, rest, h => by
    rw [List.cons_append, List.append_assoc] at h
    obtain ⟨hpieces, hclose⟩ := passes_pieces pieces [closeParen] rest (.inr rfl) h.tail
    exact ⟨hpieces, hclose.tail⟩

theorem passes_item : (item : OrderItem tools.upper) → ∀ (rest : List Token),
    Passes tools (itemTokens item ++ rest) →
      (∀ clause ∈ itemClauses item, Checked clause) ∧ Passes tools rest
  | .item expression nullOrder, rest, h => by
    rw [itemTokens, List.append_assoc] at h
    obtain ⟨hexpression, hnull⟩ := passes_operands expression _ h
    refine ⟨hexpression, ?_⟩
    cases nullOrder with
    | none => exact hnull
    | some nullOrder => exact hnull.tail.tail

theorem passes_later : (later : List (OrderItem tools.upper)) → ∀ (rest : List Token),
    Passes tools (laterTokens later ++ rest) →
      (∀ clause ∈ itemsClauses later, Checked clause) ∧ Passes tools rest
  | [], rest, h => ⟨fun _ hnone => (by cases hnone), h⟩
  | item :: others, rest, h => by
    rw [laterTokens, List.cons_append, List.append_assoc] at h
    obtain ⟨hitem, hothers⟩ := passes_item item _ h.tail
    obtain ⟨hlater, hrest⟩ := passes_later others rest hothers
    refine ⟨?_, hrest⟩
    intro clause hclause
    rcases List.mem_append.mp hclause with hin | hin
    · exact hitem clause hin
    · exact hlater clause hin

theorem passes_operand : (operand : Operand tools.upper) → ∀ (rest : List Token),
    Passes tools (operandTokens operand ++ rest) →
      (∀ clause ∈ operandClauses operand, Checked clause) ∧ Passes tools rest
  | .token _ _ _, rest, h => ⟨fun _ hnone => (by cases hnone), h.tail⟩
  | .group pieces, rest, h => passes_group pieces rest h

theorem passes_operands : (operands : List (Operand tools.upper)) → ∀ (rest : List Token),
    Passes tools (operandsTokens operands ++ rest) →
      (∀ clause ∈ operandsClauses operands, Checked clause) ∧ Passes tools rest
  | [], rest, h => ⟨fun _ hnone => (by cases hnone), h⟩
  | operand :: others, rest, h => by
    rw [operandsTokens, List.append_assoc] at h
    obtain ⟨hoperand, hothers⟩ := passes_operand operand _ h
    obtain ⟨hlater, hrest⟩ := passes_operands others rest hothers
    refine ⟨?_, hrest⟩
    intro clause hclause
    rcases List.mem_append.mp hclause with hin | hin
    · exact hoperand clause hin
    · exact hlater clause hin

end

end Passes

section Queries

variable {tools : SqlTools}

theorem mentionsNulls_of_checked {segment : List Token}
    (h : requireNullClause tools segment = .ok ()) :
    mentionsNulls (segment.map fun token => tools.upper token.text) = true := by
  unfold requireNullClause at h
  split at h
  · cases h
  · split at h
    next hmentions => exact hmentions
    next => cases h

/-- Every order item of the query, of its groups and of its windows has its own null order. -/
def ExplicitNullOrders (pieces : List (Piece tools.upper)) : Prop :=
  ∀ clause ∈ clauses [] pieces, ∀ item ∈ clause.items, item.nullOrder.isSome = true

/-- Of an accepted query every order item has its own null order exactly if no item without one is
overlooked. -/
theorem accepted_explicit_iff (tools : SqlTools) (sql : String) (uniqueColumns : List String)
    (allowedRelations : Option (List (List String))) (query : Expression)
    (haccepted : parsePortableQuery tools sql uniqueColumns allowedRelations = .ok query)
    (pieces : List (Piece tools.upper)) (hread : piecesTokens pieces = tools.tokenize sql) :
    ExplicitNullOrders pieces ↔ ∀ clause ∈ clauses [] pieces, ∀ index item,
      clause.items[index]? = some item → item.nullOrder.isSome = false →
        ¬ Overlooked clause index := by
  obtain ⟨-, hordering, -⟩ := parsePortableQuery_eq_ok haccepted
  have hpasses : Passes tools (piecesTokens pieces ++ ([] ++ [])) := by
    rw [hread, List.append_nil, List.append_nil]
    exact ⟨0, hordering⟩
  have hchecked := (passes_pieces pieces [] [] (.inl ⟨rfl, rfl⟩) hpasses).1
  constructor
  · intro hexplicit clause hclause index item hitem hnone
    rw [hexplicit clause hclause item (List.mem_of_getElem? hitem)] at hnone
    cases hnone
  · intro hseen clause hclause item hitem
    obtain ⟨index, hindex⟩ := List.mem_iff_getElem?.mp hitem
    by_contra hnone
    apply hseen clause hclause index item hindex (Bool.eq_false_of_not_eq_true hnone)
    intro segment hsegment
    exact mentionsNulls_of_checked (hchecked clause hclause segment (List.mem_of_getElem? hsegment))

def columnNamed (name : String) : Expression :=
  .node .column [("this", .one (identifier name))]

def orderBy (item : Expression) : Expression :=
  .node .order [("expressions", .many [.node .ordered [("this", .one item), ("desc", .flag false),
    ("nulls_first", .flag false)]])]

def rowNumberBy (item : Expression) : Expression :=
  .node .window [("this", .one (.node .rowNumber [])), ("order", .one (orderBy item)),
    ("over", .text "OVER")]

/-- The identifiers of the stored orders, in an order. -/
def orderedIds (item : Expression) : Expression :=
  .node .select [("expressions", .many [columnNamed "id"]),
    ("from_", .one (.node .from_ [("this", .one (tableIn "staging" "orders"))])),
    ("order", .one (orderBy item))]

def pieceWord (text : String) : Piece String.toUpper := .token (word text) rfl

def operandWord (text : String) : Operand String.toUpper := .token (word text) rfl (by simp [word])

def nullsLastOrder : NullOrder String.toUpper := ⟨"NULLS", "LAST", by decide +kernel⟩

def byId : OrderItem String.toUpper := .item [operandWord "id"] (some nullsLastOrder)

def orderedPieces (item : OrderItem String.toUpper) : List (Piece String.toUpper) :=
  [pieceWord "SELECT", pieceWord "id", pieceWord "FROM", pieceWord "staging", pieceWord ".",
    pieceWord "orders", .orderBy "ORDER BY" item []]

def sortedSql : String := "SELECT id FROM staging.orders ORDER BY id NULLS LAST"

def sortedTools : SqlTools :=
  toolsFor sortedSql (orderedIds (columnNamed "id")) (piecesTokens (orderedPieces byId))

theorem sorted_ids_explicit : @ExplicitNullOrders sortedTools (orderedPieces byId) := by
  have haccepted : parsePortableQuery sortedTools sortedSql ["id"]
      (some [["staging", "orders"]]) = .ok (orderedIds (columnNamed "id")) :=
    parsePortableQuery_of_isSome (parseOne_toolsFor _ _ _) (by decide +kernel)
  have hread : piecesTokens (orderedPieces byId) = sortedTools.tokenize sortedSql :=
    (tokenize_toolsFor _ _ _).symm
  rw [accepted_explicit_iff sortedTools _ _ _ _ haccepted _ hread]
  intro clause hclause index item hitem hnone
  obtain rfl := List.mem_singleton.mp hclause
  cases index with
  | zero =>
    obtain rfl := Option.some.inj hitem
    cases hnone
  | succ index => cases hitem

/-- The null order of the window stands in for that of the item. -/
def byRowNumber : OrderItem String.toUpper :=
  .item [operandWord "row_number", .group [], operandWord "OVER",
    .group [.orderBy "ORDER BY" byId []]] none

def numberedSql : String :=
  "SELECT id FROM staging.orders ORDER BY row_number() OVER (ORDER BY id NULLS LAST)"

def numberedTools : SqlTools :=
  toolsFor numberedSql (orderedIds (rowNumberBy (columnNamed "id")))
    (piecesTokens (orderedPieces byRowNumber))

theorem row_number_without_null_order_accepted :
    parsePortableQuery numberedTools numberedSql ["id"] (some [["staging", "orders"]]) =
        .ok (orderedIds (rowNumberBy (columnNamed "id"))) ∧
      piecesTokens (orderedPieces byRowNumber) = numberedTools.tokenize numberedSql ∧
      ¬ @ExplicitNullOrders numberedTools (orderedPieces byRowNumber) := by
  refine ⟨parsePortableQuery_of_isSome (parseOne_toolsFor _ _ _) (by decide +kernel),
    (tokenize_toolsFor _ _ _).symm, ?_⟩
  intro hexplicit
  have hsome := hexplicit ⟨byRowNumber, [], [], []⟩ List.mem_cons_self byRowNumber
    List.mem_cons_self
  cases hsome

end Queries

end Dander.Transform
