import TinyPascal.Proofs.Token.Munch

/-!
# The lexer munches maximally

A source text has the tokens that the rule of maximal munch gives it, or it is refused at the first
place that no scan can pass. The lexer goes the way of every scan, and some scan always goes on to
the end of the text or to a place where it is stuck.
-/
namespace TinyPascal.Lexer

variable {p q : Position} {c : Char} {cs rest after body value : List Char} {kind : TokenKind}
  {text : String} {piece : Piece}

theorem Decodes.splitString (h : Decodes body value) (rest : List Char) :
    splitString (body ++ '"' :: rest) = some (body, rest) := by
  induction h with
  | nil => rfl
  | plain hquote hslash _ ih =>
    rw [List.cons_append, splitString_cons _ hquote hslash, ih]
    rfl
  | newline _ ih | tab _ ih | escaped _ _ _ ih =>
    rw [List.cons_append, List.cons_append, Lexer.splitString, ih]
    rfl

theorem decodes_of_splitString {source : List Char} (h : splitString source = some (body, rest)) :
    source = body ++ '"' :: rest ∧ Decodes body (unescape body) := by
  fun_induction splitString source generalizing body with
  | case1 => cases h
  | case2 =>
    cases h
    exact ⟨rfl, .nil⟩
  | case3 c source ih =>
    obtain ⟨⟨tail, last⟩, htail, heq⟩ := Option.map_eq_some_iff.1 h
    cases heq
    obtain ⟨rfl, hdecodes⟩ := ih htail
    refine ⟨rfl, ?_⟩
    rw [unescape, unescapeChar]
    split_ifs with hn ht
    · exact hn ▸ .newline hdecodes
    · exact ht ▸ .tab hdecodes
    · exact .escaped hn ht hdecodes
  | case4 c source hquote hslash ih =>
    obtain ⟨⟨tail, last⟩, htail, heq⟩ := Option.map_eq_some_iff.1 h
    cases heq
    have hc : c ≠ '\\' := by
      rintro rfl
      cases source with
      | nil => cases htail
      | cons d source => exact hslash d source rfl rfl
    obtain ⟨rfl, hdecodes⟩ := ih htail
    exact ⟨rfl, unescape_cons tail hc ▸ .plain hquote hc hdecodes⟩

theorem closing_infix_cons_iff :
    ['*', '/'] <:+: c :: rest ↔ (c = '*' ∧ rest.head? = some '/') ∨ ['*', '/'] <:+: rest := by
  rw [List.infix_cons_iff, List.cons_prefix_cons]
  cases rest with
  | nil => simp
  | cons d rest => simp [List.cons_prefix_cons, eq_comm]

theorem splitComment_cons (h : ¬ (c = '*' ∧ rest.head? = some '/')) :
    splitComment (c :: rest) = (splitComment rest).map fun (body, after) => (c :: body, after) := by
  rw [splitComment]
  rintro tail rfl rfl
  exact h ⟨rfl, rfl⟩

theorem splitComment_of_first (h : ¬ ['*', '/'] <:+: body ++ ['*']) (rest : List Char) :
    splitComment (body ++ '*' :: '/' :: rest) = some (body, rest) := by
  induction body with
  | nil => rfl
  | cons c body ih =>
    rw [List.cons_append, closing_infix_cons_iff, not_or] at h
    rw [List.cons_append, splitComment_cons, ih h.2]
    · rfl
    · cases body with
      | nil => simp
      | cons d body => exact h.1

theorem splitComment_eq_some {source : List Char} (h : splitComment source = some (body, rest)) :
    source = body ++ '*' :: '/' :: rest ∧ ¬ ['*', '/'] <:+: body ++ ['*'] := by
  fun_induction splitComment source generalizing body with
  | case1 => cases h
  | case2 =>
    cases h
    refine ⟨rfl, ?_⟩
    decide
  | case3 c source hopen ih =>
    obtain ⟨⟨tail, last⟩, htail, heq⟩ := Option.map_eq_some_iff.1 h
    cases heq
    obtain ⟨rfl, hfirst⟩ := ih htail
    refine ⟨rfl, ?_⟩
    rw [List.cons_append, closing_infix_cons_iff, not_or]
    refine ⟨?_, hfirst⟩
    rintro ⟨rfl, hhead⟩
    cases tail with
    | nil => simp at hhead
    | cons d tail =>
      obtain rfl : d = '/' := by simpa using hhead
      exact hopen _ rfl rfl

theorem splitComment_eq_none_iff {source : List Char} :
    splitComment source = none ↔ ¬ ['*', '/'] <:+: source := by
  fun_induction splitComment source with
  | case1 => simp
  | case2 => simp [closing_infix_cons_iff]
  | case3 c source hopen ih =>
    rw [Option.map_eq_none_iff, ih, closing_infix_cons_iff, not_or]
    refine (and_iff_right ?_).symm
    rintro ⟨rfl, hhead⟩
    cases source with
    | nil => simp at hhead
    | cons d source =>
      obtain rfl : d = '/' := by simpa using hhead
      exact hopen _ rfl rfl

theorem splitMark_eq_some {source : List Char} {m : Mark}
    (h : splitMark source = some (m, after)) : source = m.spelling.toList ++ after := by
  unfold splitMark at h
  split at h <;> cases h <;> rfl

theorem exists_splitMark (hc : c ∈ markStarts) (rest : List Char) :
    ∃ m after, splitMark (c :: rest) = some (m, after) := by
  simp only [markStarts, List.mem_cons, List.not_mem_nil, or_false] at hc
  rcases hc with rfl | rfl | rfl | rfl | rfl | rfl | rfl | rfl | rfl | rfl | rfl | rfl | rfl
  all_goals
    rcases rest with _ | ⟨d, rest⟩
    · exact ⟨_, _, rfl⟩
    by_cases hgreater : d = '>'
    · subst hgreater
      exact ⟨_, _, rfl⟩
    by_cases hequal : d = '='
    · subst hequal
      exact ⟨_, _, rfl⟩
    · simp [splitMark, hgreater, hequal]

/-- Of two marks at the head of a text, the lexer takes the longer. -/
theorem length_le_of_splitMark {m n : Mark}
    (h : splitMark (m.spelling.toList ++ rest) = some (n, after)) :
    m.spelling.toList.length ≤ n.spelling.toList.length := by
  by_cases hm : m.spelling.toList.length ≤ 1
  · obtain ⟨d, ds, hn, -⟩ := spelling_eq_cons n
    rw [hn, List.length_cons]
    omega
  · have hsplit : splitMark (m.spelling.toList ++ rest) = some (m, rest) := by
      cases m <;> first | exact absurd (by decide) hm | rfl
    rw [hsplit] at h
    cases h
    exact le_rfl

theorem eq_nil_of_slash {m : Mark} (hm : m.spelling.toList = '/' :: cs) : cs = [] := by
  cases m <;> cases hm
  rfl

/-- A spelling is the longest if no longer one starts with the same character. -/
theorem longest_cons (hcomment : ¬ ['/', '*'] <+: c :: (cs ++ rest))
    (h : ∀ ds kind text, Denotes (c :: ds) kind text → ds <+: cs ++ rest →
      ds.length ≤ cs.length) : Longest (c :: cs) rest := by
  intro ds hds hstart
  cases hds with
  | @token _ kind text hds =>
    obtain ⟨d, ds, rfl, -⟩ := hds.exists_cons
    rw [List.cons_append, List.cons_prefix_cons] at hstart
    obtain ⟨rfl, hstart⟩ := hstart
    exact Nat.succ_le_succ (h ds kind text hds hstart)
  | comment => exact absurd hstart hcomment

theorem not_startsWith_comment (hc : c ≠ '/') (text : List Char) : ¬ ['/', '*'] <+: c :: text := by
  rw [List.cons_prefix_cons]
  exact fun h => hc h.1.symm

theorem length_le_length_takeWhile {isPart : Char → Bool} {ds source : List Char}
    (hds : ∀ d ∈ ds, isPart d = true) (hstart : ds <+: source) :
    ds.length ≤ (source.takeWhile isPart).length := by
  obtain ⟨rest, rfl⟩ := hstart
  rw [List.takeWhile_append_of_pos hds, List.length_append]
  omega

theorem longest_word (hc : isWordStart c = true) (source : List Char) :
    Longest (c :: source.takeWhile isWordPart) (source.dropWhile isWordPart) := by
  have hslash : c ≠ '/' := by
    rintro rfl
    exact absurd hc (by decide)
  refine longest_cons (not_startsWith_comment hslash _) fun ds kind text hds hstart => ?_
  rw [List.takeWhile_append_dropWhile] at hstart
  exact length_le_length_takeWhile (hds.word hc).1 hstart

theorem longest_number (hc : c.isDigit = true) (source : List Char) :
    Longest (c :: source.takeWhile Char.isDigit) (source.dropWhile Char.isDigit) := by
  have hslash : c ≠ '/' := by
    rintro rfl
    cases hc
  refine longest_cons (not_startsWith_comment hslash _) fun ds kind text hds hstart => ?_
  rw [List.takeWhile_append_dropWhile] at hstart
  exact length_le_length_takeWhile (hds.number hc).1 hstart

theorem longest_string (hbody : Decodes body value) (rest : List Char) :
    Longest ('"' :: (body ++ ['"'])) rest := by
  refine longest_cons (not_startsWith_comment (by decide) _) fun ds kind text hds hstart => ?_
  obtain ⟨other, otherValue, rfl, hother, -, -⟩ := hds.quoted
  obtain ⟨after, hafter⟩ := hstart
  have hsplit := hother.splitString after
  rw [List.append_assoc, List.append_assoc] at hafter
  rw [← List.singleton_append, hafter, List.singleton_append, hbody.splitString rest] at hsplit
  cases hsplit
  exact le_rfl

theorem longest_mark {m : Mark} {source : List Char} (hword : isWordStart c = false)
    (hdigit : c.isDigit = false) (hquote : c ≠ '"')
    (hcomment : ¬ (c = '/' ∧ source.head? = some '*'))
    (h : splitMark (c :: source) = some (m, after)) : Longest m.spelling.toList after := by
  have hsource := splitMark_eq_some h
  obtain ⟨d, ds, hm, -⟩ := spelling_eq_cons m
  rw [hm, List.cons_append] at hsource
  obtain ⟨rfl, rfl⟩ := List.cons.inj hsource
  rw [hm]
  refine longest_cons ?_ fun es kind text hes hstart => ?_
  · rintro ⟨more, hmore⟩
    obtain ⟨hslash, hstar⟩ := List.cons.inj hmore
    exact hcomment ⟨hslash.symm, by rw [← hstar]; rfl⟩
  · obtain ⟨n, hn, -⟩ := hes.symbol hword hdigit hquote
    obtain ⟨more, hmore⟩ := hstart
    rw [← hmore, ← List.cons_append, ← hn] at h
    have hlength := length_le_of_splitMark h
    rw [hn, hm, List.length_cons, List.length_cons] at hlength
    omega

/-- What a piece is, before `rest`: a gap, or the longest spelling of its token. -/
def Piece.Fits (piece : Piece) (rest : List Char) : Prop :=
  match piece.token? with
  | none => Gap piece.spelling
  | some (kind, text) => Denotes piece.spelling kind text ∧ Longest piece.spelling rest

theorem splitPiece_eq_ok {source : List Char} (h : splitPiece c source = .ok (piece, rest)) :
    c :: source = piece.spelling ++ rest ∧ piece.Fits rest := by
  unfold splitPiece at h
  split at h
  · next hblank =>
    cases h
    exact ⟨rfl, .blank hblank .nil⟩
  split at h
  · next hword =>
    cases h
    refine ⟨by simp [Piece.verbatim], denotes_word hword ?_, longest_word hword source⟩
    exact fun d hd => List.mem_takeWhile_imp hd
  split at h
  · next hdigit =>
    cases h
    refine ⟨by simp [Piece.verbatim], .numeral hdigit ?_, longest_number hdigit source⟩
    exact fun d hd => List.mem_takeWhile_imp hd
  split at h
  · next hquote =>
    split at h
    · next body after hbody =>
      cases h
      obtain ⟨rfl, hdecodes⟩ := decodes_of_splitString hbody
      exact ⟨by simp [hquote], .string hdecodes, longest_string hdecodes rest⟩
    · cases h
  split at h
  · next hcomment =>
    split at h
    · next body after hbody =>
      cases h
      obtain ⟨rfl, hhead⟩ := hcomment
      obtain ⟨hsource, hfirst⟩ := splitComment_eq_some hbody
      refine ⟨?_, ?_⟩
      · rw [← List.cons_head?_tail hhead, hsource]
        simp [Piece.gap]
      · exact .comment hfirst .nil
    · cases h
  · next hblank hword hdigit hquote hcomment =>
    split at h
    · next m after hm =>
      cases h
      simp only [Bool.not_eq_true] at hword hdigit
      refine ⟨splitMark_eq_some hm, ?_, longest_mark hword hdigit hquote hcomment hm⟩
      rw [Piece.verbatim, String.ofList_toList]
      exact .mark m
    · cases h

theorem splitPiece_eq_error {source : List Char} {fault : LexicalFault}
    (h : splitPiece c source = .error fault) (p : Position) :
    Stuck (p.advanceBy (c :: source)) p (c :: source)
      ⟨fault, faultPosition p (c :: source) fault⟩ := by
  unfold splitPiece at h
  split at h
  · cases h
  split at h
  · cases h
  split at h
  · cases h
  split at h
  · next hquote =>
    subst hquote
    split at h
    · cases h
    · next hnone =>
      cases h
      refine .string fun body value hbody hstart => ?_
      obtain ⟨rest, rfl⟩ := hstart
      rw [List.append_assoc, List.singleton_append, hbody.splitString] at hnone
      cases hnone
  split at h
  · next hcomment =>
    split at h
    · cases h
    · next hnone =>
      cases h
      obtain ⟨rfl, hhead⟩ := hcomment
      rw [← List.cons_head?_tail hhead]
      exact .comment (splitComment_eq_none_iff.1 hnone)
  · next hblank hword hdigit hquote hcomment =>
    split at h
    · cases h
    · next hnone =>
      cases h
      simp only [Bool.not_eq_true] at hblank hword hdigit
      refine .character hblank fun cs kind text hcs hhead => ?_
      rw [← List.cons_head?_tail hhead] at hcs
      obtain ⟨m, hm, -⟩ := hcs.symbol hword hdigit hquote
      obtain ⟨d, ds, hm', hd⟩ := spelling_eq_cons m
      obtain ⟨rfl, -⟩ := List.cons.inj (hm'.symm.trans hm)
      obtain ⟨n, after, hsome⟩ := exists_splitMark hd source
      rw [hsome] at hnone
      cases hnone

/-- The longest spelling of a token does not start where a comment does. -/
theorem not_comment_of_longest {source : List Char} (htoken : Denotes (c :: cs) kind text)
    (hlongest : Longest (c :: cs) rest) : c :: (cs ++ rest) ≠ '/' :: '*' :: source := by
  intro hsource
  have hlength := hlongest _ .comment ⟨source, hsource.symm⟩
  obtain ⟨rfl, -⟩ := List.cons.inj hsource
  obtain ⟨m, hm, -⟩ := htoken.symbol (by decide) (by decide) (by decide)
  rw [eq_nil_of_slash hm] at hlength
  exact absurd hlength (by decide)

/-- At the spelling of a token that is the longest, the lexer cuts off just that spelling. Its piece
is a candidate too, so neither is longer than the other. -/
theorem splitPiece_of_longest (htoken : Denotes (c :: cs) kind text)
    (hlongest : Longest (c :: cs) rest) :
    splitPiece c (cs ++ rest) = .ok (⟨c :: cs, some (kind, text)⟩, rest) := by
  cases hpiece : splitPiece c (cs ++ rest) with
  | error fault =>
    have hstuck := splitPiece_eq_error hpiece .start
    generalize hsource : c :: (cs ++ rest) = source at hstuck
    cases hstuck with
    | character _ hno =>
      obtain ⟨rfl, -⟩ := List.cons.inj hsource
      exact absurd rfl (hno _ _ _ htoken)
    | string hopen =>
      obtain ⟨rfl, rfl⟩ := List.cons.inj hsource
      obtain ⟨body, value, rfl, hbody, -⟩ := htoken.quoted
      exact absurd (List.prefix_append _ _) (hopen body value hbody)
    | comment _ => exact absurd hsource (not_comment_of_longest htoken hlongest)
  | ok result =>
    obtain ⟨⟨spelling, token?⟩, after⟩ := result
    obtain ⟨hsource, hfits⟩ := splitPiece_eq_ok hpiece
    cases token? with
    | none =>
      have hshorter := splitPiece_length hpiece
      dsimp only [Piece.Fits] at hsource hfits
      cases hfits with
      | nil => simp [hsource] at hshorter
      | blank hblank _ =>
        obtain ⟨rfl, -⟩ := List.cons.inj hsource
        obtain ⟨d, ds, hcs, hd⟩ := htoken.exists_cons
        obtain ⟨rfl, -⟩ := List.cons.inj hcs
        simp [hd] at hblank
      | comment _ _ => exact absurd hsource (not_comment_of_longest htoken hlongest)
    | some token =>
      obtain ⟨otherKind, otherText⟩ := token
      obtain ⟨hother, hotherLongest⟩ := hfits
      have hle := hotherLongest _ (.token htoken) ⟨rest, hsource⟩
      have hge := hlongest _ (.token hother) ⟨after, hsource.symm⟩
      dsimp only at hsource hother hle hge
      rw [← List.cons_append] at hsource
      obtain ⟨rfl, rfl⟩ := List.append_inj hsource (le_antisymm hle hge)
      obtain ⟨rfl, rfl⟩ := htoken.unique hother
      rfl

theorem splitPiece_of_comment (hbody : ¬ ['*', '/'] <:+: body ++ ['*']) (rest : List Char) :
    splitPiece '/' ('*' :: (body ++ '*' :: '/' :: rest)) =
      .ok (.gap ('/' :: '*' :: body ++ ['*', '/']), rest) := by
  rw [splitPiece, if_neg (by decide), if_neg (by decide), if_neg (by decide), if_neg (by decide),
    if_pos ⟨rfl, rfl⟩, List.tail_cons, splitComment_of_first hbody]

/-- Where a scan is stuck, the lexer cuts off nothing. -/
theorem Stuck.splitPiece {last : Position} {e : LexicalError} {source : List Char}
    (h : Stuck last q (c :: source) e) : splitPiece c source = .error e.fault := by
  cases h with
  | character hblank htoken =>
    have hword : isWordStart c = false := by
      by_contra hword
      rw [Bool.not_eq_false] at hword
      exact htoken [c] _ _ (denotes_word hword (by simp)) rfl
    have hdigit : c.isDigit = false := by
      by_contra hdigit
      rw [Bool.not_eq_false] at hdigit
      exact htoken [c] _ _ (.numeral hdigit (by simp)) rfl
    have hquote : c ≠ '"' := by
      rintro rfl
      exact htoken _ _ _ (.string .nil) rfl
    have hslash : c ≠ '/' := by
      rintro rfl
      exact htoken _ _ _ (.mark .slash) rfl
    have hmark : splitMark (c :: source) = none := by
      rw [Option.eq_none_iff_forall_ne_some]
      rintro ⟨m, after⟩ hsome
      obtain ⟨d, ds, hm, -⟩ := spelling_eq_cons m
      have hsource := splitMark_eq_some hsome
      rw [hm, List.cons_append] at hsource
      obtain ⟨rfl, -⟩ := List.cons.inj hsource
      exact htoken _ _ _ (.mark m) (by rw [hm]; rfl)
    simp [Lexer.splitPiece, hblank, hword, hdigit, hquote, hslash, hmark]
  | string hopen =>
    have hnone : splitString source = none := by
      rw [Option.eq_none_iff_forall_ne_some]
      rintro ⟨body, after⟩ hsome
      obtain ⟨rfl, hbody⟩ := decodes_of_splitString hsome
      exact hopen _ _ hbody ⟨after, by simp⟩
    rw [Lexer.splitPiece, if_neg (by decide), if_neg (by decide), if_neg (by decide), if_pos rfl,
      hnone]
  | comment hopen =>
    rw [Lexer.splitPiece, if_neg (by decide), if_neg (by decide), if_neg (by decide),
      if_neg (by decide), if_pos ⟨rfl, rfl⟩, List.tail_cons, splitComment_eq_none_iff.2 hopen]

def prepend (tokens : List Token) (result : Except LexicalError (List Token)) :
    Except LexicalError (List Token) :=
  result.map (tokens ++ ·)

@[simp] theorem prepend_nil (result : Except LexicalError (List Token)) :
    prepend [] result = result := by
  cases result <;> rfl

theorem prepend_prepend (left right : List Token) (result : Except LexicalError (List Token)) :
    prepend left (prepend right result) = prepend (left ++ right) result := by
  cases result <;> simp [prepend, Except.map]

theorem tokensFrom_of_piece {source : List Char}
    (hpiece : Lexer.splitPiece c source = .ok (piece, rest)) (p : Position) :
    tokensFrom p (c :: source) =
      prepend (piece.token?.map fun token => ⟨token.1, token.2, p⟩).toList
        (tokensFrom (p.advanceBy piece.spelling) rest) := by
  rw [tokensFrom, hpiece]
  dsimp only
  cases tokensFrom (p.advanceBy piece.spelling) rest with
  | error e => rfl
  | ok tokens => cases piece.token? <;> rfl

theorem tokensFrom_gap {gap : List Char} (hgap : Gap gap) (p : Position) (rest : List Char) :
    tokensFrom p (gap ++ rest) = tokensFrom (p.advanceBy gap) rest := by
  induction hgap generalizing p with
  | nil => rfl
  | @blank c gap hc _ ih =>
    have hpiece : Lexer.splitPiece c (gap ++ rest) = .ok (.gap [c], gap ++ rest) := by
      rw [Lexer.splitPiece, if_pos hc]
    rw [List.cons_append, tokensFrom_of_piece hpiece]
    exact (prepend_nil _).trans (ih _)
  | @comment body gap hbody _ ih =>
    have hpiece := splitPiece_of_comment hbody (gap ++ rest)
    have hsource : '/' :: '*' :: (body ++ '*' :: '/' :: gap) ++ rest =
        '/' :: '*' :: (body ++ '*' :: '/' :: (gap ++ rest)) := by simp
    have hplace : p.advanceBy ('/' :: '*' :: (body ++ '*' :: '/' :: gap)) =
        (p.advanceBy ('/' :: '*' :: body ++ ['*', '/'])).advanceBy gap := by
      rw [← Position.advanceBy_append]
      simp
    rw [hsource, tokensFrom_of_piece hpiece, hplace]
    exact (prepend_nil _).trans (ih _)

/-- The lexer goes the way of every scan. -/
theorem Scans.tokensFrom_eq {source : List Char} {tokens : List Token}
    (h : Scans p source tokens q rest) :
    tokensFrom p source = prepend tokens (tokensFrom q rest) := by
  induction h with
  | gap hgap => rw [tokensFrom_gap hgap, prepend_nil]
  | token hgap htoken hlongest _ ih =>
    obtain ⟨c, cs, rfl, -⟩ := htoken.exists_cons
    rw [tokensFrom_gap hgap, List.cons_append,
      tokensFrom_of_piece (splitPiece_of_longest htoken hlongest), ← Position.advanceBy_append, ih,
      prepend_prepend]
    rfl

theorem Stuck.tokensFrom_eq {source : List Char} {e : LexicalError}
    (h : Stuck (q.advanceBy source) q source e) : tokensFrom q source = .error e := by
  cases source with
  | nil => cases h
  | cons c source =>
    rw [tokensFrom, h.splitPiece]
    cases h <;> rfl

/-- Some scan goes on to the end of the text or to a place where it is stuck. -/
theorem exists_scans (p : Position) (source : List Char) :
    ∃ tokens q rest, Scans p source tokens q rest ∧
      (rest = [] ∨ ∃ e, Stuck (p.advanceBy source) q rest e) := by
  induction hn : source.length using Nat.strong_induction_on generalizing p source with
  | _ n ih =>
    cases source with
    | nil => exact ⟨[], p, [], .gap .nil, .inl rfl⟩
    | cons c source =>
      cases hpiece : Lexer.splitPiece c source with
      | error fault =>
        exact ⟨[], p, c :: source, .gap .nil, .inr ⟨_, splitPiece_eq_error hpiece p⟩⟩
      | ok result =>
        obtain ⟨⟨spelling, token?⟩, after⟩ := result
        obtain ⟨hsource, hfits⟩ := splitPiece_eq_ok hpiece
        have hshorter := splitPiece_length hpiece
        dsimp only at hsource
        obtain ⟨tokens, q, rest, hscans, hend⟩ :=
          ih after.length (hn ▸ hshorter) (p.advanceBy spelling) after rfl
        rw [← Position.advanceBy_append, ← hsource] at hend
        rw [hsource]
        cases token? with
        | none => exact ⟨tokens, q, rest, hscans.skip hfits, hsource ▸ hend⟩
        | some token =>
          obtain ⟨kind, text⟩ := token
          have hfirst := Scans.token .nil hfits.1 hfits.2 hscans
          exact ⟨_, q, rest, hfirst, hsource ▸ hend⟩

end TinyPascal.Lexer

namespace TinyPascal

open Lexer

variable {source : String} {rest : List Char} {tokens scanned : List Token} {q : Position}
  {e : LexicalError}

theorem tokenize_of_scans (h : Scans .start source.toList scanned q []) :
    tokenize source = .ok (scanned ++ [⟨.endOfInput, "", q⟩]) := by
  rw [tokenize, h.tokensFrom_eq, tokensFrom]
  rfl

theorem tokenize_of_stuck (h : Scans .start source.toList scanned q rest)
    (hstuck : Stuck (Position.start.advanceBy source.toList) q rest e) :
    tokenize source = .error e := by
  rw [← h.advanceBy_rest] at hstuck
  rw [tokenize, h.tokensFrom_eq, hstuck.tokensFrom_eq]
  rfl

theorem exists_scans_of_tokenize (h : tokenize source = .ok tokens) :
    ∃ scanned, Scans .start source.toList scanned (Position.start.advanceBy source.toList) [] ∧
      tokens = scanned ++ [⟨.endOfInput, "", Position.start.advanceBy source.toList⟩] := by
  obtain ⟨scanned, q, rest, hscans, rfl | ⟨e, hstuck⟩⟩ := exists_scans .start source.toList
  · obtain rfl : q = Position.start.advanceBy source.toList := hscans.advanceBy_rest
    rw [tokenize_of_scans hscans] at h
    exact ⟨scanned, hscans, (Except.ok.inj h).symm⟩
  · rw [tokenize_of_stuck hscans hstuck] at h
    cases h

theorem exists_stuck_of_tokenize (h : tokenize source = .error e) :
    ∃ scanned q rest, Scans .start source.toList scanned q rest ∧
      Stuck (Position.start.advanceBy source.toList) q rest e := by
  obtain ⟨scanned, q, rest, hscans, rfl | ⟨e, hstuck⟩⟩ := exists_scans .start source.toList
  · rw [tokenize_of_scans hscans] at h
    cases h
  · rw [tokenize_of_stuck hscans hstuck] at h
    cases h
    exact ⟨scanned, q, rest, hscans, hstuck⟩

/-- A source text has the tokens of its scan by maximal munch, with an end of input at its end, and
otherwise it is refused where its scan is stuck. -/
theorem tokenize_eq_iff_scans (source : String) :
    (∀ tokens, tokenize source = .ok tokens ↔
      ∃ scanned, Scans .start source.toList scanned (Position.start.advanceBy source.toList) [] ∧
        tokens = scanned ++ [⟨.endOfInput, "", Position.start.advanceBy source.toList⟩]) ∧
    ∀ e, tokenize source = .error e ↔
      ∃ scanned q rest, Scans .start source.toList scanned q rest ∧
        Stuck (Position.start.advanceBy source.toList) q rest e := by
  constructor
  · intro tokens
    refine ⟨exists_scans_of_tokenize, ?_⟩
    rintro ⟨scanned, hscans, rfl⟩
    exact tokenize_of_scans hscans
  · intro e
    refine ⟨exists_stuck_of_tokenize, ?_⟩
    rintro ⟨scanned, q, rest, hscans, hstuck⟩
    exact tokenize_of_stuck hscans hstuck

end TinyPascal
