import Mathlib.Data.List.TakeWhile

/-!
# Texts with quoted values

A statement is written by pasting values between single quotes into a fixed text,
and it is read back by a lexer that knows single-quoted literals: two quotes stand
for one, a backslash starts an escape sequence, and a text handed over as a C
string ends at its first zero.

Nothing is escaped when a value is pasted.  The text reads as it was meant if and
only if every value is clean, that is, if it reads as itself.
-/

namespace OpenWorkloadScheduler.Foundations

/-! ## Literals -/

/-- What the escape sequence of a letter stands for.  The sequences of the two
wildcards stand for themselves. -/
def unescape (letter : Char) : List Char :=
  if letter = '0' then [Char.ofNat 0]
  else if letter = 'b' then [Char.ofNat 8]
  else if letter = 'n' then [Char.ofNat 10]
  else if letter = 'r' then [Char.ofNat 13]
  else if letter = 't' then [Char.ofNat 9]
  else if letter = 'Z' then [Char.ofNat 26]
  else if letter = '%' ∨ letter = '_' then ['\\', letter]
  else [letter]

/-- The value of a literal whose opening quote has been read, and what follows the
closing quote. -/
def readLiteral : List Char → Option (List Char × List Char)
  | [] => none
  | '\'' :: '\'' :: rest =>
      (readLiteral rest).map fun (value, after) => ('\'' :: value, after)
  | '\'' :: rest => some ([], rest)
  | ['\\'] => none
  | '\\' :: letter :: rest =>
      (readLiteral rest).map fun (value, after) => (unescape letter ++ value, after)
  | letter :: rest =>
      (readLiteral rest).map fun (value, after) => (letter :: value, after)

theorem readLiteral_closed {rest : List Char} (single : rest.head? ≠ some '\'') :
    readLiteral ('\'' :: rest) = some ([], rest) := by
  cases rest with
  | nil => rfl
  | cons letter rest =>
      have other : letter ≠ '\'' := fun same => single (congrArg some same)
      simp [readLiteral, other]

theorem readLiteral_escaped (letter : Char) (rest : List Char) :
    readLiteral ('\\' :: letter :: rest) =
      (readLiteral rest).map fun (value, after) => (unescape letter ++ value, after) :=
  rfl

theorem readLiteral_plain {letter : Char} (quote : letter ≠ '\'') (backslash : letter ≠ '\\')
    (rest : List Char) :
    readLiteral (letter :: rest) =
      (readLiteral rest).map fun (value, after) => (letter :: value, after) := by
  simp [readLiteral, quote, backslash]

/-- A text up to its closing quote, its value, and what follows it. -/
inductive Literal : List Char → List Char → List Char → Prop where
  | doubled {rest value after : List Char} :
      Literal rest value after → Literal ('\'' :: '\'' :: rest) ('\'' :: value) after
  | closed {rest : List Char} : rest.head? ≠ some '\'' → Literal ('\'' :: rest) [] rest
  | escaped {letter : Char} {rest value after : List Char} :
      Literal rest value after →
        Literal ('\\' :: letter :: rest) (unescape letter ++ value) after
  | plain {letter : Char} {rest value after : List Char} :
      letter ≠ '\'' → letter ≠ '\\' → Literal rest value after →
        Literal (letter :: rest) (letter :: value) after

theorem literal_of_readLiteral {text value after : List Char}
    (read : readLiteral text = some (value, after)) : Literal text value after := by
  fun_induction readLiteral text generalizing value after with
  | case1 => cases read
  | case2 rest inductionHypothesis =>
      obtain ⟨⟨inner, other⟩, innerRead, ⟨⟩⟩ := Option.map_eq_some_iff.mp read
      exact .doubled (inductionHypothesis innerRead)
  | case3 rest single =>
      cases read
      refine .closed fun doubled => ?_
      obtain ⟨others, equality⟩ := List.head?_eq_some_iff.mp doubled
      exact single others equality
  | case4 => cases read
  | case5 letter rest inductionHypothesis =>
      obtain ⟨⟨inner, other⟩, innerRead, ⟨⟩⟩ := Option.map_eq_some_iff.mp read
      exact .escaped (inductionHypothesis innerRead)
  | case6 letter rest _ quote ended escape inductionHypothesis =>
      obtain ⟨⟨inner, other⟩, innerRead, ⟨⟩⟩ := Option.map_eq_some_iff.mp read
      refine .plain quote (fun same => ?_) (inductionHypothesis innerRead)
      cases rest with
      | nil => exact ended same rfl
      | cons second others => exact escape second others same rfl

theorem Literal.length {text value after : List Char} (literal : Literal text value after) :
    after.length < text.length := by
  induction literal with
  | doubled _ inductionHypothesis =>
      exact inductionHypothesis.trans (Nat.lt_add_of_pos_right (by decide : 0 < 2))
  | closed _ => exact Nat.lt_succ_self _
  | escaped _ inductionHypothesis =>
      exact inductionHypothesis.trans (Nat.lt_add_of_pos_right (by decide : 0 < 2))
  | plain _ _ _ inductionHypothesis => exact inductionHypothesis.trans (Nat.lt_succ_self _)

/-! ## C strings -/

/-- The text that a C function sees: it ends at the first zero. -/
def cString (text : List Char) : List Char :=
  text.takeWhile fun letter => letter ≠ Char.ofNat 0

theorem cString_cons_of_ne {letter : Char} (nonzero : letter ≠ Char.ofNat 0)
    (rest : List Char) : cString (letter :: rest) = letter :: cString rest :=
  List.takeWhile_cons_of_pos (decide_eq_true nonzero)

theorem cString_append {text : List Char} (nonzero : ∀ letter ∈ text, letter ≠ Char.ofNat 0)
    (rest : List Char) : cString (text ++ rest) = text ++ cString rest :=
  List.takeWhile_append_of_pos fun letter member => decide_eq_true (nonzero letter member)

/-- The first letter that a C function sees is the first letter. -/
theorem cons_of_cString {letter other : Char} {rest others : List Char}
    (same : cString (letter :: rest) = other :: others) :
    letter = other ∧ letter ≠ Char.ofNat 0 ∧ cString rest = others := by
  by_cases nonzero : letter = Char.ofNat 0
  · rw [cString, List.takeWhile_cons_of_neg (by simp [nonzero])] at same
    cases same
  · rw [cString_cons_of_ne nonzero, List.cons.injEq] at same
    exact ⟨same.1, nonzero, same.2⟩

/-! ## Clean values -/

/-- The value reads as itself: it has no quote and no zero, and each backslash stands
before a wildcard. -/
def isClean : List Char → Bool
  | [] => true
  | '\\' :: letter :: rest => (letter = '%' || letter = '_') && isClean rest
  | letter :: rest =>
      letter ≠ '\'' && letter ≠ '\\' && letter ≠ Char.ofNat 0 && isClean rest

theorem isClean_plain {letter : Char} {rest : List Char} (quote : letter ≠ '\'')
    (backslash : letter ≠ '\\') (nonzero : letter ≠ Char.ofNat 0) :
    isClean (letter :: rest) = isClean rest := by
  simp [isClean, quote, backslash, nonzero]

theorem isClean_of_plain {text : List Char}
    (plain : ∀ letter ∈ text, letter ≠ '\'' ∧ letter ≠ '\\' ∧ letter ≠ Char.ofNat 0) :
    isClean text = true := by
  induction text with
  | nil => rfl
  | cons letter rest inductionHypothesis =>
      obtain ⟨quote, backslash, nonzero⟩ := plain letter List.mem_cons_self
      rw [isClean_plain quote backslash nonzero]
      exact inductionHypothesis fun other member => plain other (List.mem_cons_of_mem _ member)

/-- A clean value, closed by a single quote, is read as itself. -/
theorem readLiteral_of_isClean {value rest : List Char} (clean : isClean value = true)
    (single : (cString rest).head? ≠ some '\'') :
    readLiteral (cString (value ++ '\'' :: rest)) = some (value, cString rest) := by
  fun_induction isClean value with
  | case1 =>
      rw [List.nil_append, cString_cons_of_ne (by decide), readLiteral_closed single]
  | case2 letter others inductionHypothesis =>
      rw [Bool.and_eq_true] at clean
      have wildcard : letter = '%' ∨ letter = '_' := by simpa using clean.1
      have kept : unescape letter = ['\\', letter] := by
        rcases wildcard with rfl | rfl <;> rfl
      have nonzero : letter ≠ Char.ofNat 0 := by
        rcases wildcard with rfl | rfl <;> decide
      rw [List.cons_append, List.cons_append, cString_cons_of_ne (by decide),
        cString_cons_of_ne nonzero, readLiteral_escaped, inductionHypothesis clean.2, kept]
      rfl
  | case3 letter others _ inductionHypothesis =>
      simp only [Bool.and_eq_true, decide_eq_true_eq] at clean
      obtain ⟨⟨⟨quote, backslash⟩, nonzero⟩, cleanRest⟩ := clean
      rw [List.cons_append, cString_cons_of_ne nonzero, readLiteral_plain quote backslash,
        inductionHypothesis cleanRest]
      rfl

/-! ## Values that do not read as themselves -/

/-- The letters that an escape sequence can yield beside the control letters, where
the value and the text agree. -/
def Special (letter : Char) : Prop :=
  letter = '\'' ∨ letter = '\\' ∨ letter = '%' ∨ letter = '_'

instance (letter : Char) : Decidable (Special letter) :=
  inferInstanceAs (Decidable (_ ∨ _))

theorem unescape_cases (letter : Char) :
    (letter = '%' ∨ letter = '_') ∧ unescape letter = ['\\', letter] ∨
      unescape letter = [letter] ∨
        ∃ control, ¬ Special control ∧ unescape letter = [control] := by
  by_cases wildcard : letter = '%' ∨ letter = '_'
  · refine Or.inl ⟨wildcard, ?_⟩
    rcases wildcard with rfl | rfl <;> rfl
  · apply Or.inr
    unfold unescape
    rw [if_neg wildcard]
    split_ifs
    · exact Or.inr ⟨_, by decide, rfl⟩
    · exact Or.inr ⟨_, by decide, rfl⟩
    · exact Or.inr ⟨_, by decide, rfl⟩
    · exact Or.inr ⟨_, by decide, rfl⟩
    · exact Or.inr ⟨_, by decide, rfl⟩
    · exact Or.inr ⟨_, by decide, rfl⟩
    · exact Or.inl rfl

section Lagging

variable {closing after : List Char} {first : Char}

/-- A text that starts with a letter that is not special is no literal of special
letters only. -/
theorem not_literal_of_closing {pending : List Char} (notSpecial : ¬ Special first)
    (special : ∀ letter ∈ pending, Special letter) :
    ¬ Literal (cString (first :: closing)) pending after := by
  intro literal
  generalize textEq : cString (first :: closing) = text at literal
  cases literal with
  | doubled _ => exact notSpecial (Or.inl (cons_of_cString textEq).1)
  | closed _ => exact notSpecial (Or.inl (cons_of_cString textEq).1)
  | escaped _ => exact notSpecial (Or.inr (Or.inl (cons_of_cString textEq).1))
  | plain _ _ _ =>
      rw [(cons_of_cString textEq).1] at notSpecial
      exact notSpecial (special _ List.mem_cons_self)

/-- Once the value lags behind the text, it does not catch up: the letters between
them are special, and the text goes on to a letter that is not. -/
theorem not_literal_of_pending {pending rest : List Char} (notSpecial : ¬ Special first)
    (lags : pending ≠ []) (special : ∀ letter ∈ pending, Special letter) :
    ¬ Literal (cString (rest ++ '\'' :: first :: closing)) (pending ++ rest) after := by
  intro literal
  generalize textEq : cString (rest ++ '\'' :: first :: closing) = text at literal
  generalize valueEq : pending ++ rest = value at literal
  have quote : Special '\'' := Or.inl rfl
  have backslash : Special '\\' := Or.inr (Or.inl rfl)
  induction literal generalizing pending rest with
  | closed _ => exact lags (List.append_eq_nil_iff.mp valueEq).1
  | @doubled others value after literal inductionHypothesis =>
      obtain ⟨letter, pending, rfl⟩ := List.exists_cons_of_ne_nil lags
      obtain ⟨rfl, rfl⟩ := List.cons.inj valueEq
      obtain ⟨_, later⟩ := List.forall_mem_cons.mp special
      rcases rest with _ | ⟨second, _ | ⟨third, rest⟩⟩
      · obtain ⟨_, _, closed⟩ := cons_of_cString textEq
        exact notSpecial (Or.inl (cons_of_cString closed).1)
      · obtain ⟨rfl, _, closed⟩ := cons_of_cString textEq
        obtain ⟨_, _, rfl⟩ := cons_of_cString closed
        refine not_literal_of_closing notSpecial ?_ literal
        exact List.forall_mem_append.mpr ⟨later, List.forall_mem_singleton.mpr quote⟩
      · obtain ⟨rfl, _, second⟩ := cons_of_cString textEq
        obtain ⟨rfl, _, rest⟩ := cons_of_cString second
        refine @inductionHypothesis (pending ++ ['\'', '\'']) _ (by simp) ?_ rest (by simp)
        refine List.forall_mem_append.mpr ⟨later, ?_⟩
        exact List.forall_mem_cons.mpr ⟨quote, List.forall_mem_singleton.mpr quote⟩
  | @escaped escape others value after literal inductionHypothesis =>
      rcases rest with _ | ⟨second, _ | ⟨third, rest⟩⟩
      · exact absurd (cons_of_cString textEq).1 (by decide)
      · obtain ⟨rfl, _, closed⟩ := cons_of_cString textEq
        obtain ⟨rfl, _, rfl⟩ := cons_of_cString closed
        obtain ⟨letter, pending, rfl⟩ := List.exists_cons_of_ne_nil lags
        obtain ⟨_, rfl⟩ := List.cons.inj valueEq
        obtain ⟨_, later⟩ := List.forall_mem_cons.mp special
        refine not_literal_of_closing notSpecial ?_ literal
        exact List.forall_mem_append.mpr ⟨later, List.forall_mem_singleton.mpr backslash⟩
      · obtain ⟨rfl, _, second⟩ := cons_of_cString textEq
        obtain ⟨rfl, _, textRest⟩ := cons_of_cString second
        obtain ⟨head, pending, rfl⟩ := List.exists_cons_of_ne_nil lags
        obtain ⟨headSpecial, later⟩ := List.forall_mem_cons.mp special
        -- what the escape sequence yields must be what is pending
        rcases unescape_cases third with ⟨wildcard, kept⟩ | kept | ⟨control, other, kept⟩
        · rw [kept] at valueEq
          rcases pending with _ | ⟨next, pending⟩
          · obtain ⟨_, tails⟩ := List.cons.inj valueEq
            rw [← (List.cons.inj tails).1] at kept
            exact absurd kept (by decide)
          · obtain ⟨_, tails⟩ := List.cons.inj valueEq
            obtain ⟨_, values⟩ := List.cons.inj tails
            refine @inductionHypothesis (pending ++ ['\\', third]) rest (by simp) ?_ textRest
              (by simpa using values)
            refine List.forall_mem_append.mpr ⟨(List.forall_mem_cons.mp later).2, ?_⟩
            exact List.forall_mem_cons.mpr
              ⟨backslash, List.forall_mem_singleton.mpr (Or.inr (Or.inr wildcard))⟩
        · rw [kept] at valueEq
          obtain ⟨rfl, values⟩ := List.cons.inj valueEq
          refine @inductionHypothesis (pending ++ ['\\', head]) rest (by simp) ?_ textRest
            (by simpa using values)
          refine List.forall_mem_append.mpr ⟨later, ?_⟩
          exact List.forall_mem_cons.mpr ⟨backslash, List.forall_mem_singleton.mpr headSpecial⟩
        · rw [kept] at valueEq
          obtain ⟨rfl, _⟩ := List.cons.inj valueEq
          exact other headSpecial
  | @plain letter others value after single _ literal inductionHypothesis =>
      obtain ⟨head, pending, rfl⟩ := List.exists_cons_of_ne_nil lags
      obtain ⟨rfl, values⟩ := List.cons.inj valueEq
      obtain ⟨headSpecial, later⟩ := List.forall_mem_cons.mp special
      cases rest with
      | nil => exact single (cons_of_cString textEq).1.symm
      | cons second rest =>
          obtain ⟨rfl, _, textRest⟩ := cons_of_cString textEq
          refine @inductionHypothesis (pending ++ [second]) rest (by simp) ?_ textRest
            (by simpa using values)
          exact List.forall_mem_append.mpr ⟨later, List.forall_mem_singleton.mpr headSpecial⟩

theorem isClean_of_literal {value : List Char} (notSpecial : ¬ Special first)
    (literal : Literal (cString (value ++ '\'' :: first :: closing)) value after) :
    isClean value = true := by
  have quote : Special '\'' := Or.inl rfl
  have backslash : Special '\\' := Or.inr (Or.inl rfl)
  generalize textEq : cString (value ++ '\'' :: first :: closing) = text at literal
  induction literal with
  | closed _ => rfl
  | @doubled others value after literal _ =>
      obtain ⟨_, _, textRest⟩ := cons_of_cString textEq
      cases value with
      | nil =>
          obtain ⟨_, _, rfl⟩ := cons_of_cString textRest
          exact absurd literal (not_literal_of_closing notSpecial (by simp))
      | cons second rest =>
          obtain ⟨rfl, _, rfl⟩ := cons_of_cString textRest
          exact absurd literal (@not_literal_of_pending closing after first ['\''] rest notSpecial
            (by simp) (List.forall_mem_singleton.mpr quote))
  | @escaped letter others value after literal inductionHypothesis =>
      rcases unescape_cases letter with ⟨wildcard, kept⟩ | kept | ⟨control, other, kept⟩
      · rw [kept] at textEq ⊢
        obtain ⟨_, _, second⟩ := cons_of_cString textEq
        obtain ⟨_, _, textRest⟩ := cons_of_cString second
        change ((decide (letter = '%') || decide (letter = '_')) && isClean value) = true
        rw [inductionHypothesis textRest, Bool.and_true]
        simpa using wildcard
      · rw [kept] at textEq ⊢
        obtain ⟨rfl, _, textRest⟩ := cons_of_cString textEq
        cases value with
        | nil => exact absurd (cons_of_cString textRest).1 (by decide)
        | cons second rest =>
            obtain ⟨rfl, _, rfl⟩ := cons_of_cString textRest
            exact absurd literal (@not_literal_of_pending closing after first ['\\'] rest
              notSpecial (by simp) (List.forall_mem_singleton.mpr backslash))
      · rw [kept] at textEq
        rw [(cons_of_cString textEq).1] at other
        exact absurd backslash other
  | @plain letter others value after notQuote notBackslash literal inductionHypothesis =>
      obtain ⟨_, nonzero, textRest⟩ := cons_of_cString textEq
      rw [isClean_plain notQuote notBackslash nonzero]
      exact inductionHypothesis textRest

end Lagging

/-! ## Tokens -/

/-- What a text consists of: quoted values, and the letters beside them. -/
inductive Token where
  | symbol (letter : Char)
  | literal (value : List Char)
  deriving DecidableEq, Repr

/-- The tokens of a text, unless a quote is left open. -/
def lex : List Char → Option (List Token)
  | [] => some []
  | letter :: rest =>
      if letter = '\'' then
        match _read : readLiteral rest with
        | none => none
        | some (value, after) => (lex after).map (Token.literal value :: ·)
      else (lex rest).map (Token.symbol letter :: ·)
termination_by text => text.length
decreasing_by
  · exact (literal_of_readLiteral _read).length.trans (Nat.lt_succ_self _)
  · exact Nat.lt_succ_self _

theorem lex_literal {rest value after : List Char}
    (read : readLiteral rest = some (value, after)) :
    lex ('\'' :: rest) = (lex after).map (Token.literal value :: ·) := by
  rw [lex, if_pos rfl]
  split
  · rename_i none
    rw [none] at read
    cases read
  · rename_i other others some
    rw [some] at read
    cases read
    rfl

theorem lex_open {rest : List Char} (read : readLiteral rest = none) :
    lex ('\'' :: rest) = none := by
  rw [lex, if_pos rfl]
  split
  · rfl
  · rename_i other others some
    rw [some] at read
    cases read

theorem lex_symbols {symbols : List Char} (unquoted : ∀ letter ∈ symbols, letter ≠ '\'')
    (rest : List Char) :
    lex (symbols ++ rest) = (lex rest).map (symbols.map Token.symbol ++ ·) := by
  induction symbols with
  | nil => simp
  | cons letter symbols inductionHypothesis =>
      obtain ⟨other, later⟩ := List.forall_mem_cons.mp unquoted
      rw [List.cons_append, lex, if_neg other, inductionHypothesis later, Option.map_map]
      rfl

/-! ## Pasting values into a text -/

/-- A statement to be written: its text up to the first value, and each value with the
text up to the next one. -/
structure Template where
  opening : String
  fields : List (String × String)

namespace Template

def pasteFields : List (String × String) → String
  | [] => ""
  | (field, following) :: fields => "'" ++ field ++ "'" ++ following ++ pasteFields fields

/-- The statement as it is written, its values between quotes. -/
def paste (template : Template) : String :=
  template.opening ++ pasteFields template.fields

def fieldTokens : List (String × String) → List Token
  | [] => []
  | (field, following) :: fields =>
      .literal field.toList :: (following.toList.map .symbol ++ fieldTokens fields)

/-- The statement as it is meant, with one literal for each value. -/
def tokens (template : Template) : List Token :=
  template.opening.toList.map .symbol ++ fieldTokens template.fields

/-- The tokens of a text that is handed over as a C string. -/
def read (text : String) : Option (List Token) :=
  lex (cString text.toList)

/-- A text without quotes and zeros. -/
def Unquoted (text : String) : Prop :=
  ∀ letter ∈ text.toList, letter ≠ '\'' ∧ letter ≠ Char.ofNat 0

instance (text : String) : Decidable (Unquoted text) :=
  List.decidableBAll (fun letter => letter ≠ '\'' ∧ letter ≠ Char.ofNat 0) text.toList

/-- A text after a value: it starts with a letter that is not special. -/
def Follows (text : String) : Prop :=
  Unquoted text ∧ ∃ first, text.toList.head? = some first ∧ ¬ Special first

instance (text : String) : Decidable (Follows text) :=
  decidable_of_iff (Unquoted text ∧ text.toList.head?.any (fun first => ¬ Special first) = true)
    (and_congr_right fun _ => by simp [Option.any_eq_true])

/-- The texts beside the values can stand there. -/
structure WellFormed (template : Template) : Prop where
  opening : Unquoted template.opening
  following : ∀ field ∈ template.fields, Follows field.2

theorem wellFormed_mk {opening : String} {fields : List (String × String)}
    (unquoted : Unquoted opening) (following : ∀ field ∈ fields, Follows field.2) :
    (⟨opening, fields⟩ : Template).WellFormed :=
  ⟨unquoted, following⟩

theorem follows_cons {value text : String} {fields : List (String × String)}
    (follows : Follows text) (rest : ∀ field ∈ fields, Follows field.2) :
    ∀ field ∈ (value, text) :: fields, Follows field.2 :=
  List.forall_mem_cons.mpr ⟨follows, rest⟩

theorem follows_singleton {value text : String} (follows : Follows text) :
    ∀ field ∈ [(value, text)], Follows field.2 :=
  List.forall_mem_singleton.mpr follows

theorem lex_unquoted {text : String} (unquoted : Unquoted text) (rest : List Char) :
    lex (cString (text.toList ++ rest)) =
      (lex (cString rest)).map (text.toList.map Token.symbol ++ ·) := by
  rw [cString_append fun letter member => (unquoted letter member).2]
  exact lex_symbols (fun letter member => (unquoted letter member).1) _

theorem unquoted_append {first second : String} (firstUnquoted : Unquoted first)
    (secondUnquoted : Unquoted second) : Unquoted (first ++ second) := by
  intro letter member
  rw [String.toList_append, List.mem_append] at member
  exact member.elim (firstUnquoted letter) (secondUnquoted letter)

theorem follows_append {first second : String} (follows : Follows first)
    (unquoted : Unquoted second) : Follows (first ++ second) := by
  obtain ⟨firstUnquoted, letter, head, notSpecial⟩ := follows
  obtain ⟨rest, equality⟩ := List.head?_eq_some_iff.mp head
  refine ⟨unquoted_append firstUnquoted unquoted, letter, ?_, notSpecial⟩
  rw [String.toList_append, equality]
  rfl

theorem toList_pasteFields_cons (field following : String) (fields : List (String × String)) :
    (pasteFields ((field, following) :: fields)).toList =
      '\'' :: (field.toList ++ '\'' :: (following.toList ++ (pasteFields fields).toList)) := by
  rw [pasteFields, String.toList_append, String.toList_append, String.toList_append,
    String.toList_append]
  simp

theorem lex_pasteFields_iff {fields : List (String × String)}
    (wellFormed : ∀ field ∈ fields, Follows field.2) :
    lex (cString (pasteFields fields).toList) = some (fieldTokens fields) ↔
      ∀ field ∈ fields, isClean field.1.toList = true := by
  induction fields with
  | nil => simp [pasteFields, fieldTokens, cString, lex]
  | cons field fields inductionHypothesis =>
      obtain ⟨field, following⟩ := field
      obtain ⟨⟨unquoted, closing⟩, later⟩ := List.forall_mem_cons.mp wellFormed
      have rest := inductionHypothesis later
      have cancel : ∀ result : Option (List Token),
          result.map (following.toList.map Token.symbol ++ ·) =
              some (following.toList.map Token.symbol ++ fieldTokens fields) ↔
            result = some (fieldTokens fields) := by
        intro result
        cases result <;> simp
      obtain ⟨first, head, notSpecial⟩ := closing
      obtain ⟨others, followingEq⟩ := List.head?_eq_some_iff.mp head
      have single : (cString (following.toList ++ (pasteFields fields).toList)).head? ≠
          some '\'' := by
        intro quoted
        obtain ⟨_, textEq⟩ := List.head?_eq_some_iff.mp quoted
        rw [followingEq, List.cons_append] at textEq
        exact notSpecial (Or.inl (cons_of_cString textEq).1)
      rw [toList_pasteFields_cons, cString_cons_of_ne (by decide), List.forall_mem_cons,
        ← rest, ← cancel, ← lex_unquoted unquoted]
      constructor
      · intro lexed
        cases read : readLiteral (cString (field.toList ++
            '\'' :: (following.toList ++ (pasteFields fields).toList))) with
        | none =>
            rw [lex_open read] at lexed
            cases lexed
        | some pair =>
            obtain ⟨value, after⟩ := pair
            rw [lex_literal read] at lexed
            obtain ⟨tokens, lexedAfter, same⟩ := Option.map_eq_some_iff.mp lexed
            obtain ⟨sameValue, sameTokens⟩ := List.cons.inj same
            cases sameValue
            have literal := literal_of_readLiteral read
            rw [followingEq, List.cons_append] at literal
            have clean := isClean_of_literal notSpecial literal
            rw [readLiteral_of_isClean clean single, Option.some.injEq, Prod.mk.injEq] at read
            refine ⟨clean, ?_⟩
            rw [read.2, lexedAfter, sameTokens]
      · rintro ⟨clean, lexed⟩
        rw [lex_literal (readLiteral_of_isClean clean single), lexed]
        rfl

/-- A statement reads as it is meant if and only if its values are clean. -/
theorem read_paste_iff {template : Template} (wellFormed : template.WellFormed) :
    read template.paste = some template.tokens ↔
      ∀ field ∈ template.fields, isClean field.1.toList = true := by
  rw [read, paste, String.toList_append, lex_unquoted wellFormed.opening, tokens,
    ← lex_pasteFields_iff wellFormed.following]
  cases lex (cString (pasteFields template.fields).toList) <;> simp

/-! ## The text as it is concatenated -/

/-- The values with the texts that stand between them, quotes included. -/
def quoteFields : List (String × String) → List (String × String)
  | [] => []
  | [(field, following)] => [(field, "'" ++ following)]
  | (field, following) :: next :: fields =>
      (field, "'" ++ following ++ "'") :: quoteFields (next :: fields)

/-- Values and texts appended to a text in turn. -/
def concatenate (text : String) (fields : List (String × String)) : String :=
  fields.foldl (fun text (field, following) => text ++ field ++ following) text

theorem concatenate_append (first second : String) (fields : List (String × String)) :
    concatenate (first ++ second) fields = first ++ concatenate second fields := by
  induction fields generalizing second with
  | nil => rfl
  | cons field fields inductionHypothesis =>
      have moved := inductionHypothesis (second ++ field.1 ++ field.2)
      rw [← String.append_assoc, ← String.append_assoc] at moved
      exact moved

/-- A writer pastes the quotes with the texts between the values. -/
theorem paste_eq_concatenate (opening : String) (field : String × String)
    (fields : List (String × String)) :
    (⟨opening, field :: fields⟩ : Template).paste =
      concatenate (opening ++ "'") (quoteFields (field :: fields)) := by
  rw [paste, concatenate_append]
  congr 1
  induction fields generalizing field with
  | nil =>
      change "'" ++ field.1 ++ "'" ++ field.2 ++ "" = "'" ++ field.1 ++ ("'" ++ field.2)
      rw [String.append_empty, String.append_assoc]
  | cons next fields inductionHypothesis =>
      rw [pasteFields, inductionHypothesis next, ← concatenate_append]
      change concatenate (_ ++ "'") _ = concatenate ("'" ++ field.1 ++ ("'" ++ field.2 ++ "'")) _
      rw [← String.append_assoc, ← String.append_assoc]

end Template

end OpenWorkloadScheduler.Foundations
