import Mathlib.Data.List.Basic
import Mathlib.Data.List.Infix

/-! # Texts with comments

The lexical structure of a text with quoted literals, line comments and block comments, over any
alphabet with the marks for them. `Lexes` says how a text falls into pieces; every text does in
exactly one way (`lexes_iff`), which `lex` computes. Removing the comments leaves a text whose
pieces are the remaining ones (`Lexes.uncomment`).
-/

namespace Commented

variable {α : Type}

/-- The symbols that open and close literals and comments. -/
structure Marks (α : Type) where
  quote : α
  escape : α
  slash : α
  star : α
  newline : α
  quote_ne_escape : quote ≠ escape
  quote_ne_slash : quote ≠ slash
  star_ne_slash : star ≠ slash
  newline_ne_quote : newline ≠ quote
  newline_ne_slash : newline ≠ slash

/-- A piece of a text: a symbol outside literals and comments, a literal, a comment up to the
end of its line, or one between marks. The last piece may be a literal or a block that is not
closed. -/
inductive Piece (α : Type)
  | text (a : α)
  | literal (body : List α) (closed : Bool)
  | line (body : List α)
  | block (body : List α) (closed : Bool)
deriving DecidableEq

def Piece.isComment : Piece α → Bool
  | .text _ | .literal _ _ => false
  | .line _ | .block _ _ => true

variable (marks : Marks α)

def Piece.source : Piece α → List α
  | .text a => [a]
  | .literal body closed => marks.quote :: (body ++ if closed then [marks.quote] else [])
  | .line body => marks.slash :: marks.slash :: body
  | .block body closed =>
    marks.slash :: marks.star :: (body ++ if closed then [marks.star, marks.slash] else [])

def source (pieces : List (Piece α)) : List α :=
  pieces.flatMap (Piece.source marks)

/-- The pieces that are not comments. -/
def uncomment (pieces : List (Piece α)) : List (Piece α) :=
  pieces.filter fun piece => !piece.isComment

/-- What stands between the quotes of a literal: an escape takes the next symbol with it. -/
inductive Body : List α → Prop
  | nil : Body []
  | plain {a : α} {body : List α} : a ≠ marks.quote → a ≠ marks.escape → Body body →
      Body (a :: body)
  | escaped {a : α} {body : List α} : Body body → Body (marks.escape :: a :: body)

/-- A literal without a closing quote may also end in an escape. -/
def OpenBody (body : List α) : Prop :=
  Body marks body ∨ ∃ front, Body marks front ∧ body = front ++ [marks.escape]

/-- Whether the first two symbols of a text open a comment. -/
def OpensComment : List α → Prop
  | a :: b :: _ => a = marks.slash ∧ (b = marks.slash ∨ b = marks.star)
  | _ => False

/-- The symbols that close a block. -/
def Marks.closing : List α :=
  [marks.star, marks.slash]

/-- **The lexical structure of a text.** -/
inductive Lexes : List α → List (Piece α) → Prop
  | nil : Lexes [] []
  | text {a : α} {rest : List α} {pieces : List (Piece α)} : a ≠ marks.quote →
      ¬ OpensComment marks (a :: rest) → Lexes rest pieces →
      Lexes (a :: rest) (.text a :: pieces)
  | literal {body rest : List α} {pieces : List (Piece α)} : Body marks body →
      Lexes rest pieces →
      Lexes (marks.quote :: (body ++ marks.quote :: rest)) (.literal body true :: pieces)
  | openLiteral {body : List α} : OpenBody marks body →
      Lexes (marks.quote :: body) [.literal body false]
  | line {body rest : List α} {pieces : List (Piece α)} : marks.newline ∉ body →
      (rest = [] ∨ rest.head? = some marks.newline) → Lexes rest pieces →
      Lexes (marks.slash :: marks.slash :: (body ++ rest)) (.line body :: pieces)
  | block {body rest : List α} {pieces : List (Piece α)} :
      ¬ marks.closing <:+: body ++ [marks.star] → Lexes rest pieces →
      Lexes (marks.slash :: marks.star :: (body ++ (marks.closing ++ rest)))
        (.block body true :: pieces)
  | openBlock {body : List α} : ¬ marks.closing <:+: body →
      Lexes (marks.slash :: marks.star :: body) [.block body false]

/-- A text without comments. -/
def Free (s : List α) : Prop :=
  ∃ pieces, Lexes marks s pieces ∧ ∀ piece ∈ pieces, piece.isComment = false

variable {marks}

variable {s rest body : List α} {pieces : List (Piece α)} {a : α}

theorem Lexes.source_eq (lexed : Lexes marks s pieces) : source marks pieces = s := by
  rw [source]
  induction lexed with
  | nil => rfl
  | text plain alone rest ih => rw [List.flatMap_cons, ih]; rfl
  | literal body rest ih =>
    rw [List.flatMap_cons, ih]
    simp [Piece.source]
  | openLiteral body => simp [Piece.source]
  | line body ended rest ih => rw [List.flatMap_cons, ih]; rfl
  | block body rest ih =>
    rw [List.flatMap_cons, ih]
    simp [Piece.source, Marks.closing]
  | openBlock body => simp [Piece.source]

/-- A symbol outside literals does not open a comment together with the next one. -/
theorem Lexes.not_opensComment (lexed : Lexes marks s pieces) {before after : List (Piece α)}
    (split : pieces = before ++ .text a :: after) :
    ¬ OpensComment marks (a :: source marks after) := by
  induction lexed generalizing before with
  | nil => exact (List.append_ne_nil_of_right_ne_nil _ (List.cons_ne_nil _ _) split.symm).elim
  | text plain alone rest ih =>
    cases before with
    | nil =>
      obtain ⟨same, rfl⟩ := List.cons.inj split
      cases same
      rw [rest.source_eq]
      exact alone
    | cons piece before => exact ih (List.cons.inj split).2
  | literal inside rest ih | line inside ended rest ih | block inside rest ih =>
    cases before with
    | nil => cases (List.cons.inj split).1
    | cons piece before => exact ih (List.cons.inj split).2
  | openLiteral inside | openBlock inside =>
    cases before with
    | nil => cases (List.cons.inj split).1
    | cons piece before =>
      exact (List.append_ne_nil_of_right_ne_nil _ (List.cons_ne_nil _ _)
        (List.cons.inj split).2.symm).elim

/-! ## Removing the comments -/

theorem uncomment_of_free (free : ∀ piece ∈ pieces, piece.isComment = false) :
    uncomment pieces = pieces := by
  rw [uncomment, List.filter_eq_self]
  intro piece member
  rw [free piece member]
  rfl

theorem isComment_of_mem_uncomment {piece : Piece α} (member : piece ∈ uncomment pieces) :
    piece.isComment = false := by
  have kept := (List.mem_filter.mp member).2
  rwa [Bool.not_eq_true'] at kept

/-- A text that does not start with a comment starts the same without its comments. -/
theorem Lexes.head_uncomment (lexed : Lexes marks s pieces) (start : s.head? ≠ some marks.slash) :
    (source marks (uncomment pieces)).head? = s.head? := by
  cases lexed with
  | nil => rfl
  | text plain alone rest => rfl
  | literal body rest => rfl
  | openLiteral body => rfl
  | line body ended rest => exact absurd rfl start
  | block body rest => exact absurd rfl start
  | openBlock body => exact absurd rfl start

theorem OpensComment.slash (opens : OpensComment marks (a :: rest)) : a = marks.slash := by
  cases rest with
  | nil => exact opens.elim
  | cons b rest => exact opens.1

theorem opensComment_congr {first second : List α} (same : first.head? = second.head?) :
    OpensComment marks (a :: first) ↔ OpensComment marks (a :: second) := by
  cases first with
  | nil =>
    cases second with
    | nil => exact .rfl
    | cons b rest => cases same
  | cons b rest =>
    cases second with
    | nil => cases same
    | cons c rest' =>
      obtain rfl : b = c := Option.some.inj same
      exact .rfl

/-- **What is left has no comments.** The pieces that are not comments are the pieces of the text
they make up. -/
theorem Lexes.uncomment (lexed : Lexes marks s pieces) :
    Lexes marks (source marks (uncomment pieces)) (uncomment pieces) := by
  induction lexed with
  | nil => exact .nil
  | @text a rest pieces plain alone lexed ih =>
    refine .text plain ?_ ih
    intro (opens : OpensComment marks (a :: source marks (Commented.uncomment pieces)))
    by_cases start : rest.head? = some marks.slash
    · -- a text that starts with a slash cannot follow a slash
      obtain ⟨tail, rfl⟩ : ∃ tail, rest = marks.slash :: tail := by
        cases rest with
        | nil => cases start
        | cons b tail => exact ⟨tail, by rw [Option.some.inj start]⟩
      exact alone ⟨opens.slash, .inl rfl⟩
    · exact alone ((opensComment_congr (lexed.head_uncomment start)).mp opens)
  | @literal body rest pieces inside lexed ih =>
    have whole := Lexes.literal inside ih
    simpa [Commented.uncomment, source, Piece.isComment, Piece.source] using whole
  | openLiteral inside =>
    have whole := Lexes.openLiteral inside
    simpa [Commented.uncomment, source, Piece.isComment, Piece.source] using whole
  | line inside ended lexed ih => exact ih
  | block inside lexed ih => exact ih
  | openBlock inside => exact .nil

theorem Lexes.free (lexed : Lexes marks s pieces) :
    Free marks (source marks (Commented.uncomment pieces)) :=
  ⟨_, lexed.uncomment, fun _ member => isComment_of_mem_uncomment member⟩

/-! ## Computing the pieces -/

/-- Where a reader is: outside, or in a piece whose beginning it has read. -/
inductive Mode (α : Type)
  | text
  | literal (body : List α)
  | line (body : List α)
  | block (body : List α)

variable (marks) [DecidableEq α]

def lexFrom : Mode α → List α → List (Piece α)
  | .text, [] => []
  | .text, [a] => if a = marks.quote then [.literal [] false] else [.text a]
  | .text, a :: b :: rest =>
    if a = marks.quote then lexFrom (.literal []) (b :: rest)
    else if a = marks.slash ∧ b = marks.slash then lexFrom (.line []) rest
    else if a = marks.slash ∧ b = marks.star then lexFrom (.block []) rest
    else .text a :: lexFrom .text (b :: rest)
  | .literal body, [] => [.literal body false]
  | .literal body, [a] =>
    if a = marks.quote then [.literal body true] else [.literal (body ++ [a]) false]
  | .literal body, a :: b :: rest =>
    if a = marks.quote then .literal body true :: lexFrom .text (b :: rest)
    else if a = marks.escape then lexFrom (.literal (body ++ [a, b])) rest
    else lexFrom (.literal (body ++ [a])) (b :: rest)
  | .line body, [] => [.line body]
  | .line body, a :: rest =>
    if a = marks.newline then .line body :: .text a :: lexFrom .text rest
    else lexFrom (.line (body ++ [a])) rest
  | .block body, [] => [.block body false]
  | .block body, [a] => [.block (body ++ [a]) false]
  | .block body, a :: b :: rest =>
    if a = marks.star ∧ b = marks.slash then .block body true :: lexFrom .text rest
    else lexFrom (.block (body ++ [a])) (b :: rest)

/-- The pieces of a text. -/
def lex (s : List α) : List (Piece α) :=
  lexFrom marks .text s

variable {marks}

/-! ### The readers -/

attribute [local simp] lexFrom

theorem lexFrom_text (plain : a ≠ marks.quote) (alone : ¬ OpensComment marks (a :: rest)) :
    lexFrom marks .text (a :: rest) = .text a :: lexFrom marks .text rest := by
  cases rest with
  | nil => simp [plain]
  | cons b rest =>
    have notLine : ¬ (a = marks.slash ∧ b = marks.slash) := fun both =>
      alone ⟨both.1, .inl both.2⟩
    have notBlock : ¬ (a = marks.slash ∧ b = marks.star) := fun both =>
      alone ⟨both.1, .inr both.2⟩
    simp only [lexFrom, if_neg plain, if_neg notLine, if_neg notBlock]

theorem lexFrom_quote (rest : List α) :
    lexFrom marks .text (marks.quote :: rest) = lexFrom marks (.literal []) rest := by
  cases rest with
  | nil => simp
  | cons b rest => simp

theorem lexFrom_opensLine (rest : List α) :
    lexFrom marks .text (marks.slash :: marks.slash :: rest) = lexFrom marks (.line []) rest := by
  simp [marks.quote_ne_slash.symm]

theorem lexFrom_opensBlock (rest : List α) :
    lexFrom marks .text (marks.slash :: marks.star :: rest) = lexFrom marks (.block []) rest := by
  simp [marks.quote_ne_slash.symm, marks.star_ne_slash]

theorem lexFrom_body (inside : Body marks body) (read rest : List α) :
    lexFrom marks (.literal read) (body ++ rest) = lexFrom marks (.literal (read ++ body)) rest := by
  induction inside generalizing read with
  | nil => rw [List.append_nil]; rfl
  | @plain a body notQuote notEscape inside ih =>
    rw [List.append_cons, ← ih]
    cases tail : body ++ rest with
    | nil => simp [notQuote, tail]
    | cons b tail' => simp [notQuote, notEscape, tail]
  | @escaped a body inside ih =>
    have next := ih (read ++ [marks.escape, a])
    simpa [marks.quote_ne_escape.symm] using next

theorem lexFrom_closing (body rest : List α) : lexFrom marks (.literal body) (marks.quote :: rest) =
      .literal body true :: lexFrom marks .text rest := by
  cases rest with
  | nil => simp
  | cons b rest => simp

theorem lexFrom_openBody (inside : OpenBody marks body) :
    lexFrom marks (.literal []) body = [.literal body false] := by
  rcases inside with inside | ⟨front, inside, rfl⟩
  · have read := lexFrom_body inside [] []
    rw [List.append_nil] at read
    rw [read]
    rfl
  · rw [lexFrom_body inside]
    simp [marks.quote_ne_escape.symm]

theorem lexFrom_line (read : List α)
    (inside : marks.newline ∉ body) (ended : rest = [] ∨ rest.head? = some marks.newline) :
    lexFrom marks (.line read) (body ++ rest) =
      .line (read ++ body) :: lexFrom marks .text rest := by
  induction body generalizing read with
  | nil =>
    rw [List.nil_append, List.append_nil]
    rcases ended with rfl | start
    · rfl
    · obtain ⟨tail, rfl⟩ := List.head?_eq_some_iff.mp start
      rw [lexFrom, if_pos rfl, lexFrom_text marks.newline_ne_quote]
      exact fun opens => marks.newline_ne_slash opens.slash
  | cons a body ih =>
    have different : a ≠ marks.newline := fun same => inside (same ▸ (.head _))
    rw [List.append_cons, ← ih _ (fun member => inside (.tail _ member))]
    simp [if_neg different]

omit [DecidableEq α] in
theorem closing_cons : marks.closing <:+: a :: s ↔
    (a = marks.star ∧ s.head? = some marks.slash) ∨ marks.closing <:+: s := by
  rw [List.infix_cons_iff, Marks.closing, List.cons_prefix_cons]
  refine or_congr_left ?_
  constructor
  · rintro ⟨star, slash⟩
    obtain ⟨tail, rfl⟩ := slash
    exact ⟨star.symm, rfl⟩
  · rintro ⟨star, slash⟩
    obtain ⟨tail, rfl⟩ := List.head?_eq_some_iff.mp slash
    exact ⟨star.symm, tail, rfl⟩

theorem lexFrom_block (read : List α) (inside : ¬ marks.closing <:+: body ++ [marks.star]) :
    lexFrom marks (.block read) (body ++ (marks.closing ++ rest)) =
      .block (read ++ body) true :: lexFrom marks .text rest := by
  induction body generalizing read with
  | nil => simp [Marks.closing]
  | cons a body ih =>
    rw [List.cons_append, closing_cons, not_or] at inside
    rw [List.append_cons, ← ih _ inside.2]
    cases body with
    | nil =>
      have open' : ¬ (a = marks.star ∧ marks.star = marks.slash) :=
        fun both => marks.star_ne_slash both.2
      simp [Marks.closing, if_neg open']
    | cons b body =>
      have open' : ¬ (a = marks.star ∧ b = marks.slash) :=
        fun both => inside.1 ⟨both.1, by rw [both.2]; rfl⟩
      simp [if_neg open']

theorem lexFrom_openBlock (read : List α) (inside : ¬ marks.closing <:+: body) :
    lexFrom marks (.block read) body = [.block (read ++ body) false] := by
  induction body generalizing read with
  | nil => rw [List.append_nil]; rfl
  | cons a body ih =>
    rw [closing_cons, not_or] at inside
    rw [List.append_cons, ← ih _ inside.2]
    cases body with
    | nil => rfl
    | cons b body =>
      have open' : ¬ (a = marks.star ∧ b = marks.slash) :=
        fun both => inside.1 ⟨both.1, by rw [both.2]; rfl⟩
      simp only [lexFrom, if_neg open']

theorem Lexes.lex_eq (lexed : Lexes marks s pieces) : lex marks s = pieces := by
  rw [lex]
  induction lexed with
  | nil => rfl
  | text plain alone rest ih => rw [lexFrom_text plain alone, ih]
  | literal inside rest ih =>
    rw [lexFrom_quote, lexFrom_body inside, List.nil_append, lexFrom_closing, ih]
  | openLiteral inside => rw [lexFrom_quote, lexFrom_openBody inside]
  | line inside ended rest ih =>
    rw [lexFrom_opensLine, lexFrom_line _ inside ended, List.nil_append, ih]
  | block inside rest ih =>
    rw [lexFrom_opensBlock, lexFrom_block _ inside, List.nil_append, ih]
  | openBlock inside => rw [lexFrom_opensBlock, lexFrom_openBlock _ inside, List.nil_append]

/-! ### Every text falls into pieces -/

omit [DecidableEq α] in
theorem Body.append {read : List α} (inside : Body marks read) (more : Body marks body) :
    Body marks (read ++ body) := by
  induction inside with
  | nil => exact more
  | plain notQuote notEscape _ ih => exact .plain notQuote notEscape ih
  | escaped _ ih => exact .escaped ih

/-- The beginning of the piece that a reader is in. -/
def Mode.opened (marks : Marks α) : Mode α → List α
  | .text => []
  | .literal read => marks.quote :: read
  | .line read => marks.slash :: marks.slash :: read
  | .block read => marks.slash :: marks.star :: read

/-- The piece that a reader is in has not ended yet. -/
def Mode.Reads (marks : Marks α) : Mode α → List α → Prop
  | .text, _ => True
  | .literal read, _ => Body marks read
  | .line read, _ => marks.newline ∉ read
  | .block read, s => ¬ marks.closing <:+: read ++ s.take 1

omit [DecidableEq α] in
theorem not_closing_concat {read : List α} {b : α} (inside : ¬ marks.closing <:+: read ++ [a])
    (apart : ¬ (a = marks.star ∧ b = marks.slash)) : ¬ marks.closing <:+: read ++ [a] ++ [b] := by
  rw [List.infix_concat_iff, not_or]
  refine ⟨fun ⟨front, same⟩ => apart ?_, inside⟩
  rw [List.append_assoc] at same
  cases List.append_inj_right' same rfl
  exact ⟨rfl, rfl⟩

/-- **Every text has a lexical structure.** -/
theorem lexes_lexFrom (mode : Mode α) (s : List α) (reads : mode.Reads marks s) :
    Lexes marks (mode.opened marks ++ s) (lexFrom marks mode s) := by
  fun_induction lexFrom marks mode s with
  | case1 => exact .nil
  | case2 => exact .openLiteral (.inl .nil)
  | case3 a plain => exact .text plain id .nil
  | case4 b rest ih => exact ih .nil
  | case5 a b rest _ both ih =>
    obtain ⟨rfl, rfl⟩ := both
    exact ih List.not_mem_nil
  | case6 a b rest _ _ both ih =>
    obtain ⟨rfl, rfl⟩ := both
    refine ih fun inside => ?_
    have short := inside.length_le
    simp only [Marks.closing, List.nil_append, List.length_take, List.length_cons] at short
    omega
  | case7 a b rest plain notLine notBlock ih =>
    refine .text plain (fun opens => ?_) (ih trivial)
    exact opens.2.elim (fun slash => notLine ⟨opens.1, slash⟩) fun star => notBlock ⟨opens.1, star⟩
  | case8 read =>
    rw [List.append_nil]
    exact .openLiteral (.inl reads)
  | case9 read => exact .literal reads .nil
  | case10 read a plain =>
    refine .openLiteral ?_
    by_cases escape : a = marks.escape
    · exact .inr ⟨read, reads, by rw [escape]; rfl⟩
    · exact .inl (reads.append (.plain plain escape .nil))
  | case11 read b rest ih => exact .literal reads (ih trivial)
  | case12 read b rest _ ih =>
    simpa [Mode.opened] using ih (reads.append (.escaped .nil))
  | case13 read a b rest plain escape ih =>
    simpa [Mode.opened] using ih (reads.append (.plain plain escape .nil))
  | case14 read => exact .line reads (.inl rfl) .nil
  | case15 read rest ih =>
    refine .line reads (.inr rfl) (.text marks.newline_ne_quote ?_ (ih trivial))
    exact fun opens => marks.newline_ne_slash opens.slash
  | case16 read a rest other ih =>
    refine List.append_cons _ a rest ▸ ih fun member => ?_
    exact (List.mem_append.mp member).elim reads fun last => other (List.mem_singleton.mp last).symm
  | case17 read =>
    rw [Mode.Reads, List.take_nil, List.append_nil] at reads
    rw [List.append_nil]
    exact .openBlock reads
  | case18 read a => exact .openBlock reads
  | case19 read a b rest both ih =>
    obtain ⟨rfl, rfl⟩ := both
    exact .block reads (ih trivial)
  | case20 read a b rest apart ih =>
    simpa [Mode.opened] using ih (not_closing_concat reads apart)
/-- **The lexical structure is unique**, and `lex` computes it. -/
theorem lexes_iff : Lexes marks s pieces ↔ lex marks s = pieces := by
  refine ⟨Lexes.lex_eq, ?_⟩
  rintro rfl
  exact lexes_lexFrom .text s trivial

end Commented
