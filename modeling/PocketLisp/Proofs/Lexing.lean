/-
PocketLisp/Proofs/Lexing.lean

How tokens lie in a text.

A gap, made of blanks and of comments with their line ends, is skipped
(`skip_gap`).  A word without delimiters is one token, if what follows it
starts with a delimiter or is empty (`next_word`); decimal literals are such
words (`Word.of_parse?`).  The written form of a text is one token whatever
follows it (`next_quote`).  Every token but the end takes a character at least
(`length_next_lt`).
-/
import PocketLisp.Token

namespace PocketLisp

/-! ### Gaps -/

/-- What may stand between two tokens. -/
inductive Gap : Source → Prop
  | none : Gap []
  | blank {c : Char} {cs : Source} : Text.isBlank c = true → Gap cs → Gap (c :: cs)
  /-- a comment, up to the end of its line -/
  | comment {line cs : Source} : '\n' ∉ line → Gap cs → Gap (';' :: (line ++ '\n' :: cs))

namespace Source

theorem skip_blank {c : Char} (h : Text.isBlank c = true) (cs : Source) :
    skip (c :: cs) = skip cs := by
  simp [skip, skipFrom, h]

theorem skip_other {c : Char} (h : Text.isBlank c = false) (hc : c ≠ ';') (cs : Source) :
    skip (c :: cs) = c :: cs := by
  simp [skip, skipFrom, h, hc]

theorem skip_semicolon (cs : Source) : skip (';' :: cs) = skipFrom true cs := by
  simp [skip, skipFrom, show Text.isBlank ';' = false by decide]

/-- A comment is skipped with the end of its line. -/
theorem skipFrom_line {line : Source} (h : '\n' ∉ line) (cs : Source) :
    skipFrom true (line ++ '\n' :: cs) = skip cs := by
  induction line with
  | nil => simp [skipFrom, skip]
  | cons c line ih =>
    obtain ⟨hc, hline⟩ : '\n' ≠ c ∧ '\n' ∉ line := by simpa using h
    simp [skipFrom, Ne.symm hc, ih hline]

theorem skip_gap {gap : Source} (h : Gap gap) (cs : Source) : skip (gap ++ cs) = skip cs := by
  induction h with
  | none => rfl
  | blank hc _ ih => rw [List.cons_append, skip_blank hc, ih]
  | @comment line rest hline _ ih =>
    rw [List.cons_append, skip_semicolon, List.append_assoc, List.cons_append, skipFrom_line hline,
      ih]

/-- What is left after skipping starts with no blank and with no comment. -/
theorem head_skipFrom {inComment : Bool} {cs : Source} {c : Char}
    (h : c ∈ (skipFrom inComment cs).head?) : Text.isBlank c = false ∧ c ≠ ';' := by
  induction cs generalizing inComment with
  | nil => simp [skipFrom] at h
  | cons d cs ih =>
    simp only [skipFrom] at h
    split at h
    · exact ih h
    · split at h
      · exact ih h
      · split at h
        · exact ih h
        · next hblank hsemi =>
          obtain rfl : d = c := by simpa using h
          exact ⟨by simpa using hblank, hsemi⟩

theorem head_skip {cs : Source} {c : Char} (h : c ∈ cs.skip.head?) :
    Text.isBlank c = false ∧ c ≠ ';' :=
  head_skipFrom h

theorem length_skipFrom_le (inComment : Bool) (cs : Source) :
    (skipFrom inComment cs).length ≤ cs.length := by
  induction cs generalizing inComment with
  | nil => exact Nat.le_refl _
  | cons c cs ih =>
    simp only [skipFrom]
    split
    · exact Nat.le_succ_of_le (ih _)
    · split
      · exact Nat.le_succ_of_le (ih _)
      · split
        · exact Nat.le_succ_of_le (ih _)
        · exact Nat.le_refl _

theorem length_skip_le (cs : Source) : cs.skip.length ≤ cs.length := length_skipFrom_le false cs

end Source

/-! ### Words -/

/-- What follows a word: nothing, or a delimiter. -/
def Boundary (rest : Source) : Prop := ∀ c ∈ rest.head?, Token.isDelimiter c = true

theorem boundary_nil : Boundary [] := by simp [Boundary]

theorem boundary_cons {c : Char} (h : Token.isDelimiter c = true) (cs : Source) :
    Boundary (c :: cs) := by simpa [Boundary] using h

/-- A gap that is not empty ends a word. -/
theorem Gap.boundary {gap : Source} (h : Gap gap) (hne : gap ≠ []) (rest : Source) :
    Boundary (gap ++ rest) := by
  cases h with
  | none => exact absurd rfl hne
  | blank hc _ => exact boundary_cons (by simp [Token.isDelimiter, hc]) _
  | comment _ _ => exact boundary_cons (by decide) _

theorem Gap.boundary_self {gap : Source} (h : Gap gap) : Boundary gap := by
  cases h with
  | none => exact boundary_nil
  | blank hc hgap => exact (Gap.blank hc hgap).boundary (by simp) []
  | comment hline hgap => exact (Gap.comment hline hgap).boundary (by simp) []

theorem Gap.skip {gap : Source} (h : Gap gap) : Source.skip gap = [] := by
  have hskip := Source.skip_gap h []
  rwa [List.append_nil] at hskip

/-- A text that is one token, a symbol or a number. -/
structure Word (cs : Source) : Prop where
  ne_nil : cs ≠ []
  plain : ∀ c ∈ cs, Token.isDelimiter c = false
  unquoted : cs.head? ≠ some '\''

/-- A text is one token if a check of all its characters says so. -/
theorem Word.of_all {cs : Source} (hne : cs ≠ [])
    (hplain : cs.all (fun c => !Token.isDelimiter c) = true) (hquote : cs.head? ≠ some '\'') :
    Word cs :=
  ⟨hne, fun c hc => by simpa using List.all_eq_true.mp hplain c hc, hquote⟩

namespace Token

theorem not_delimiter {c : Char} (h : isDelimiter c = false) :
    Text.isBlank c = false ∧ c ≠ '(' ∧ c ≠ ')' ∧ c ≠ '"' ∧ c ≠ ';' := by
  simpa [isDelimiter, and_assoc] using h

theorem takeWhile_word {cs rest : Source} (h : ∀ c ∈ cs, isDelimiter c = false)
    (hrest : Boundary rest) : (cs ++ rest).takeWhile (fun c => !isDelimiter c) = cs := by
  rw [List.takeWhile_append_of_pos (by simpa using h)]
  cases rest with
  | nil => simp
  | cons d ds => simp [hrest d rfl]

theorem dropWhile_word {cs rest : Source} (h : ∀ c ∈ cs, isDelimiter c = false)
    (hrest : Boundary rest) : (cs ++ rest).dropWhile (fun c => !isDelimiter c) = rest := by
  rw [List.dropWhile_append_of_pos (by simpa using h)]
  cases rest with
  | nil => rfl
  | cons d ds => simp [hrest d rfl]

/-- A word is one token, up to the boundary behind it. -/
theorem next_word {cs rest : Source} (h : Word cs) (hrest : Boundary rest) :
    next (cs ++ rest) = (.ok (ofAtom cs), rest) := by
  obtain ⟨c, cs, rfl⟩ := List.exists_cons_of_ne_nil h.ne_nil
  obtain ⟨hblank, hleft, hright, hdouble, hsemi⟩ := not_delimiter (h.plain c (by simp))
  have hquote : c ≠ '\'' := by simpa using h.unquoted
  have htake := takeWhile_word h.plain hrest
  have hdrop := dropWhile_word h.plain hrest
  rw [List.cons_append] at htake hdrop ⊢
  rw [next, Source.skip_other hblank hsemi, take.eq_6 c _ hleft hright hquote hdouble]
  rw [htake, hdrop]

theorem next_gap {gap : Source} (h : Gap gap) (cs : Source) : next (gap ++ cs) = next cs := by
  rw [next, next, Source.skip_gap h]

/-- Skipping twice is skipping once, so a token may be looked for behind what is skipped. -/
theorem next_skip (s : Source) : next s.skip = next s := by
  have hskip : s.skip.skip = s.skip := by
    rcases h : s.skip with - | ⟨c, cs⟩
    · rfl
    · obtain ⟨hblank, hsemi⟩ := Source.head_skip (show c ∈ s.skip.head? by simp [h])
      exact Source.skip_other hblank hsemi cs
  rw [next, next, hskip]

theorem next_space (cs : Source) : next (' ' :: cs) = next cs :=
  next_gap (.blank (by decide) .none) cs

theorem next_leftParen (cs : Source) : next ('(' :: cs) = (.ok .leftParen, cs) := by
  rw [next, Source.skip_other (by decide) (by decide)]
  rfl

theorem next_rightParen (cs : Source) : next (')' :: cs) = (.ok .rightParen, cs) := by
  rw [next, Source.skip_other (by decide) (by decide)]
  rfl

/-! ### Texts -/

/-- Any other character stands for itself. -/
theorem takeText_other {c : Char} (hquote : c ≠ '"') (hescape : c ≠ '\\') (collected : List Char)
    (rest : Source) : takeText collected (c :: rest) = takeText (c :: collected) rest := by
  rw [takeText]
  · exact hquote
  · exact fun h _ => hescape h
  · exact fun _ _ h _ => hescape h

/-- The escape of a character stands for the character. -/
theorem takeText_escapeChar (collected : List Char) (c : Char) (rest : Source) :
    takeText collected (Text.escapeChar c ++ rest) = takeText (c :: collected) rest := by
  unfold Text.escapeChar
  split
  case h_6 _ _ _ hbackslash hdouble => exact takeText_other hdouble hbackslash _ _
  all_goals simp [takeText, Text.unescape]

theorem takeText_escaped (collected cs : List Char) (rest : Source) :
    takeText collected (cs.flatMap Text.escapeChar ++ '"' :: rest) =
      some (collected.reverse ++ cs, rest) := by
  induction cs generalizing collected with
  | nil => simp [takeText]
  | cons c cs ih =>
    rw [List.flatMap_cons, List.append_assoc, takeText_escapeChar, ih]
    simp

/-- The written form of a text is one token, whatever follows it. -/
theorem next_quote (cs : List Char) (rest : Source) :
    next (Text.quote cs ++ rest) = (.ok (.text (String.ofList cs)), rest) := by
  have h : Text.quote cs ++ rest = '"' :: (cs.flatMap Text.escapeChar ++ '"' :: rest) := by
    simp [Text.quote]
  rw [h, next, Source.skip_other (by decide) (by decide)]
  simp [take, takeText_escaped]

end Token

/-! ### Decimal literals -/

namespace Number

/-- The characters of decimal literals. -/
def isLiteralChar (c : Char) : Bool :=
  isDigit c || c == '+' || c == '-' || c == '.' || c == 'e' || c == 'E'

theorem isLiteralChar_of_isDigit {c : Char} (h : isDigit c = true) : isLiteralChar c = true := by
  simp [isLiteralChar, h]

theorem takeDigits_append {digits rest : List Char} (h : ∀ c ∈ digits, isDigit c = true)
    (hrest : ∀ c ∈ rest.head?, isDigit c = false) :
    takeDigits (digits ++ rest) = (digits, rest) := by
  rw [takeDigits, List.takeWhile_append_of_pos h, List.dropWhile_append_of_pos h]
  cases rest with
  | nil => simp
  | cons c rest => simp [hrest c rfl]

/-- A point ends a run of digits. -/
theorem takeDigits_point {digits : List Char} (h : ∀ c ∈ digits, isDigit c = true)
    (rest : List Char) : takeDigits (digits ++ '.' :: rest) = (digits, '.' :: rest) :=
  takeDigits_append h fun c hc => by
    obtain rfl : '.' = c := by simpa using hc
    decide

/-- The characters of a text apart from those of a rest of it. -/
def LiteralUpTo (cs rest : List Char) : Prop :=
  ∃ front, (∀ c ∈ front, isLiteralChar c = true) ∧ cs = front ++ rest

theorem LiteralUpTo.trans {cs ds es : List Char} (h : LiteralUpTo cs ds) (h' : LiteralUpTo ds es) :
    LiteralUpTo cs es := by
  obtain ⟨front, hfront, rfl⟩ := h
  obtain ⟨front', hfront', rfl⟩ := h'
  refine ⟨front ++ front', fun c hc => ?_, (List.append_assoc ..).symm⟩
  rcases List.mem_append.mp hc with hc | hc
  · exact hfront c hc
  · exact hfront' c hc

theorem literalUpTo_cons {c : Char} (h : isLiteralChar c = true) (cs : List Char) :
    LiteralUpTo (c :: cs) cs := ⟨[c], by simpa using h, rfl⟩

theorem literalUpTo_takeSign (cs : List Char) : LiteralUpTo cs (takeSign cs).2 := by
  fun_cases takeSign cs with
  | case1 cs | case2 cs => exact literalUpTo_cons (by decide) cs
  | case3 => exact ⟨[], by simp, rfl⟩

theorem literalUpTo_takeDigits (cs : List Char) : LiteralUpTo cs (takeDigits cs).2 := by
  refine ⟨cs.takeWhile isDigit, fun c hc => ?_, List.takeWhile_append_dropWhile.symm⟩
  exact isLiteralChar_of_isDigit (List.all_eq_true.mp List.all_takeWhile c hc)

theorem literalUpTo_takeMantissa {cs rest : List Char} {digits : List Char × List Char}
    (h : takeMantissa cs = some (digits, rest)) : LiteralUpTo cs rest := by
  have hcs := literalUpTo_takeDigits cs
  -- digits, a point and more digits
  have hpoint : ∀ ds, (takeDigits cs).2 = '.' :: ds → LiteralUpTo cs (takeDigits ds).2 := by
    intro ds hds
    rw [hds] at hcs
    exact (hcs.trans (literalUpTo_cons (by decide) ds)).trans (literalUpTo_takeDigits ds)
  fun_cases takeMantissa cs with
  | case1 ds hds _ hnone => simp [takeMantissa, hds, hnone] at h
  | case2 ds hds fraction rest' hne hfraction =>
    have hrest := hpoint ds (by rw [hds])
    rw [hfraction] at hrest
    simp only [takeMantissa, hds, hfraction, Option.some.injEq, Prod.mk.injEq] at h
    exact h.2 ▸ hrest
  | case3 ds hno hds => simp [takeMantissa, hds] at h
  | case4 whole ds hne hds fraction rest' hfraction =>
    have hrest := hpoint ds (by rw [hds])
    rw [hfraction] at hrest
    simp only [takeMantissa, hds, hfraction, Option.some.injEq, Prod.mk.injEq] at h
    exact h.2 ▸ hrest
  | case5 whole rest' _ hne hno hds =>
    rw [hds] at hcs
    simp only [takeMantissa, hds, Option.some.injEq, Prod.mk.injEq] at h
    exact h.2 ▸ hcs

theorem literalUpTo_exponentOf? {cs : List Char} {e : Int} (h : exponentOf? cs = some e) :
    LiteralUpTo cs [] := by
  fun_cases exponentOf? cs with
  | case1 => exact ⟨[], by simp, rfl⟩
  | case2 c cs hc negative ds hsign _ hnone => simp [exponentOf?, hc, hsign, hnone] at h
  | case3 c cs hc negative ds hsign _ _ _ _ hmore => simp [exponentOf?, hc, hsign, hmore] at h
  | case4 c cs hc negative ds hsign digits hne hdigits =>
    have hmark : isLiteralChar c = true := by
      rcases hc with rfl | rfl <;> decide
    have hcs := literalUpTo_takeSign cs
    have hds := literalUpTo_takeDigits ds
    rw [hsign] at hcs
    rw [hdigits] at hds
    exact (literalUpTo_cons hmark cs).trans (hcs.trans hds)
  | case5 c cs hc => simp [exponentOf?, hc] at h

/-- A decimal literal is made of the characters of decimal literals, and is not empty. -/
theorem literal_of_parse? {cs : List Char} {x : Float} (h : parse? cs = some x) :
    cs ≠ [] ∧ ∀ c ∈ cs, isLiteralChar c = true := by
  refine ⟨?_, ?_⟩
  · rintro rfl
    exact absurd h (by simp [parse?, Literal.of?, takeSign, takeMantissa, takeDigits])
  · obtain ⟨l, hl, -⟩ := Option.map_eq_some_iff.mp h
    simp only [Literal.of?, Option.bind_eq_bind, Option.bind_eq_some_iff] at hl
    obtain ⟨⟨digits, rest⟩, hmantissa, e, hexponent, -⟩ := hl
    have hsign := literalUpTo_takeSign cs
    have hrest := literalUpTo_takeMantissa hmantissa
    obtain ⟨front, hfront, hcs⟩ := (hsign.trans hrest).trans (literalUpTo_exponentOf? hexponent)
    rw [List.append_nil] at hcs
    exact hcs ▸ hfront

theorem plain_of_isLiteralChar {c : Char} (h : isLiteralChar c = true) :
    Token.isDelimiter c = false ∧ c ≠ '\'' := by
  have hcases : isDigit c = true ∨ c = '+' ∨ c = '-' ∨ c = '.' ∨ c = 'e' ∨ c = 'E' := by
    simpa [isLiteralChar, or_assoc] using h
  rcases hcases with hdigit | rfl | rfl | rfl | rfl | rfl
  · obtain ⟨hlow, hhigh⟩ : 48 ≤ c.toNat ∧ c.toNat ≤ 57 := by
      simpa [isDigit, Char.le_def, UInt32.le_iff_toNat_le] using hdigit
    -- no delimiter and no quote mark lies among the digits
    have hne : ∀ d : Char, d.toNat < 48 ∨ 57 < d.toNat → c ≠ d := by
      rintro d hd rfl
      omega
    have hblank : Text.isBlank c = false := by
      simp [Text.isBlank]
      omega
    refine ⟨?_, hne _ (by decide)⟩
    simp [Token.isDelimiter, hblank, hne '(' (by decide), hne ')' (by decide),
      hne '"' (by decide), hne ';' (by decide)]
  all_goals decide

end Number

/-- A decimal literal is one token. -/
theorem Word.of_parse? {cs : List Char} {x : Float} (h : Number.parse? cs = some x) : Word cs := by
  obtain ⟨hne, hcs⟩ := Number.literal_of_parse? h
  refine ⟨hne, fun c hc => (Number.plain_of_isLiteralChar (hcs c hc)).1, fun hquote => ?_⟩
  exact (Number.plain_of_isLiteralChar (hcs _ (List.mem_of_head? hquote))).2 rfl

/-! ### Progress -/

namespace Token

theorem length_takeText_lt {collected cs : List Char} {content rest}
    (h : takeText collected cs = some (content, rest)) : rest.length < cs.length := by
  fun_induction takeText collected cs with
  | case1 | case3 => simp at h
  | case2 collected cs =>
    simp only [Option.some.injEq, Prod.mk.injEq] at h
    simp [h.2]
  | case4 collected c cs ih =>
    have hlt := ih h
    simp only [List.length_cons]
    omega
  | case5 collected c cs _ _ _ ih =>
    have hlt := ih h
    simp only [List.length_cons]
    omega

/-- A token that is taken behind blanks and comments takes a character at least. -/
theorem length_take_lt {s rest : Source} {token : Token} (h : take s = (.ok token, rest))
    (ht : token ≠ .endOfInput)
    (hs : ∀ c ∈ s.head?, Text.isBlank c = false ∧ c ≠ ';') : rest.length < s.length := by
  fun_cases take s with
  | case1 =>
    simp only [take, Prod.mk.injEq, Except.ok.injEq] at h
    exact absurd h.1.symm ht
  | case2 cs | case3 cs | case4 cs =>
    simp only [take, Prod.mk.injEq] at h
    simp [h.2]
  | case5 cs content rest' htake =>
    simp only [take, htake, Prod.mk.injEq] at h
    have hlt := length_takeText_lt htake
    rw [← h.2, List.length_cons]
    omega
  -- an open text gives no token
  | case6 cs htake => simp [take, htake] at h
  | case7 c cs hleft hright hquote hdouble _ =>
    -- a word holds its first character at least
    obtain ⟨hblank, hsemi⟩ := hs c rfl
    have hplain : isDelimiter c = false := by
      have hleft : c ≠ '(' := hleft
      have hright : c ≠ ')' := hright
      have hdouble : c ≠ '"' := hdouble
      simp [isDelimiter, hblank, hsemi, hleft, hright, hdouble]
    rw [take.eq_6 c cs hleft hright hquote hdouble] at h
    simp only [List.dropWhile_cons, hplain, Bool.not_false, if_true, Prod.mk.injEq] at h
    have hle := (List.dropWhile_suffix (fun c => !isDelimiter c) (l := cs)).length_le
    rw [← h.2, List.length_cons]
    omega

/-- Every token but the end takes a character at least. -/
theorem length_next_lt {s rest : Source} {token : Token} (h : next s = (.ok token, rest))
    (ht : token ≠ .endOfInput) : rest.length < s.length :=
  Nat.lt_of_lt_of_le (length_take_lt h ht fun _ hc => Source.head_skip hc) (Source.length_skip_le s)

end Token

end PocketLisp
