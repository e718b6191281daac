import Mathlib.Data.String.Basic
import Mathlib.Tactic
import TinyPascal.Proofs.Token.Order

/-!
# Positions by byte offset

The lexer counts lines and columns as it goes along. The position of a character can also be looked
up from its offset in bytes, without going through the text: a table holds the offset at which each
line starts, the line is found in it by binary search, and the column is the number of characters
from the start of the line. The two ways agree at every boundary between characters, the end of the
text included, and the look-up never fails there. So it gives the tokens of a text the positions
that the lexer gives them.
-/
namespace TinyPascal

/-- The offsets at which new lines start in a text that itself starts at `offset`. -/
def lineStartsFrom (offset : ℕ) : List Char → List ℕ
  | [] => []
  | c :: rest =>
    if c = '\n' then (offset + 1) :: lineStartsFrom (offset + c.utf8Size) rest
    else lineStartsFrom (offset + c.utf8Size) rest

def lineStarts (text : List Char) : List ℕ :=
  0 :: lineStartsFrom 0 text

/-- The first place from `low` up to `high` where an element of the table fails the test, by binary
search. -/
def partitionPoint {α : Type} (test : α → Bool) (table : Array α) (low high : ℕ) : ℕ :=
  if low < high then
    if table[(low + high) / 2]?.any test then
      partitionPoint test table ((low + high) / 2 + 1) high
    else
      partitionPoint test table low ((low + high) / 2)
  else low
termination_by high - low

/-- The part of a text between two offsets, if both are boundaries between characters and they stand
in order. -/
def Text.slice? (source : String) (start stop : ℕ) : Option String := do
  let first ← source.pos? ⟨start⟩
  let last ← source.pos? ⟨stop⟩
  return (← source.slice? first last).copy

structure LineIndex where
  source : String
  starts : Array ℕ

namespace LineIndex

def ofText (source : String) : LineIndex :=
  ⟨source, (lineStarts source.toList).toArray⟩

/-- The position at an offset. There is none if the search gives no line, or if the offset is no
boundary between characters. -/
def position? (index : LineIndex) (offset : ℕ) : Option Position :=
  let line := partitionPoint (· ≤ offset) index.starts 0 index.starts.size
  if line = 0 then none
  else do
    let start ← index.starts[line - 1]?
    let beginning ← Text.slice? index.source start offset
    return ⟨line, beginning.length + 1⟩

end LineIndex

/-- The position at a boundary between characters, looked up by its offset. -/
def Position.lookUp? {source : String} (p : source.Pos) : Option Position :=
  (LineIndex.ofText source).position? p.offset.byteIdx

/-- In a table whose elements pass the test up to a place and fail it from there on, the search
finds that place. -/
theorem partitionPoint_eq {α : Type} {test : α → Bool} {table : Array α} {left right : List α}
    (htable : table.toList = left ++ right) (hleft : ∀ a ∈ left, test a = true)
    (hright : ∀ a ∈ right, test a = false) {low high : ℕ} (hlow : low ≤ left.length)
    (hhigh : left.length ≤ high) (hsize : high ≤ table.size) :
    partitionPoint test table low high = left.length := by
  fun_induction partitionPoint test table low high with
  | case1 low high hlt htest ih =>
    refine ih ?_ hhigh hsize
    by_contra hmiddle
    rw [← Array.getElem?_toList, htable, List.getElem?_append_right (by omega),
      Option.any_eq_true] at htest
    obtain ⟨a, ha, htest⟩ := htest
    rw [hright a (List.mem_of_getElem? ha)] at htest
    cases htest
  | case2 low high hlt htest ih =>
    refine ih hlow ?_ (by omega)
    by_contra hmiddle
    have hbound : (low + high) / 2 < left.length := by omega
    apply htest
    rw [← Array.getElem?_toList, htable, List.getElem?_append_left hbound,
      List.getElem?_eq_getElem hbound]
    exact hleft _ (List.getElem_mem hbound)
  | case3 low high hle => omega

theorem Text.pos?_offset {source : String} (p : source.Pos) : source.pos? p.offset = some p := by
  have hvalid : String.Pos.Raw.isValidForSlice source.toSlice p.offset = true := by
    simp [p.isValid]
  have hslice : source.toSlice.pos? p.offset = some p.toSlice := dif_pos hvalid
  change Option.map String.Pos.ofToSlice (source.toSlice.pos? p.offset) = _
  rw [hslice]
  rfl

theorem Text.slice?_eq {source : String} {first last : source.Pos} {before middle after : String}
    (hfirst : first.Splits before (middle ++ after))
    (hlast : last.Splits (before ++ middle) after) :
    slice? source first.offset.byteIdx last.offset.byteIdx = some middle := by
  obtain ⟨hle, hcopy⟩ := String.Slice.copy_slice_eq_iff_splits.2
    ⟨before, after, String.Pos.splits_toSlice_iff.2 hfirst, String.Pos.splits_toSlice_iff.2 hlast⟩
  rw [String.slice_toSlice] at hcopy
  have hslice : source.slice? first last = some (source.slice first last hle) := dif_pos hle
  rw [slice?, pos?_offset, Option.bind_eq_bind, Option.bind_some, pos?_offset, Option.bind_eq_bind,
    Option.bind_some, hslice, Option.bind_some, hcopy]
  rfl

section

open String

variable {offset start : ℕ} {text : List Char}

theorem lineStartsFrom_append (offset : ℕ) (left right : List Char) :
    lineStartsFrom offset (left ++ right) =
      lineStartsFrom offset left ++ lineStartsFrom (offset + utf8Len left) right := by
  induction left generalizing offset with
  | nil => rfl
  | cons c left ih =>
    have hoffset : offset + c.utf8Size + utf8Len left = offset + utf8Len (c :: left) := by
      rw [utf8Len_cons]
      omega
    rw [List.cons_append, lineStartsFrom, lineStartsFrom, ih, hoffset]
    split_ifs <;> rfl

theorem mem_lineStartsFrom (h : start ∈ lineStartsFrom offset text) :
    offset < start ∧ start ≤ offset + utf8Len text := by
  induction text generalizing offset with
  | nil => cases h
  | cons c text ih =>
    have hsize := c.utf8Size_pos
    rw [utf8Len_cons]
    rw [lineStartsFrom] at h
    split_ifs at h with hc
    · rcases List.mem_cons.1 h with rfl | h
      · omega
      · have hbounds := ih h
        omega
    · have hbounds := ih h
      omega

/-- The last line of a text: where it starts, and how the position at the end of the text is made of
the number of lines and the length of the last one. -/
theorem exists_lastLine (text : List Char) : ∃ lines last, text = lines ++ last ∧
    (lineStarts text).getLast? = some (utf8Len lines) ∧
    Position.start.advanceBy text = ⟨(lineStarts text).length, last.length + 1⟩ := by
  induction text using List.reverseRecOn with
  | nil => exact ⟨[], [], rfl, rfl, rfl⟩
  | append_singleton text c ih =>
    obtain ⟨lines, last, htext, hstart, hposition⟩ := ih
    rw [Position.advanceBy_append, hposition, Position.advanceBy_cons, Position.advanceBy_nil,
      Position.advance]
    have happend : lineStarts (text ++ [c]) =
        lineStarts text ++ lineStartsFrom (utf8Len text) [c] := by
      rw [lineStarts, lineStarts, lineStartsFrom_append, Nat.zero_add]
      rfl
    by_cases hc : c = '\n'
    · -- The last line ends here, and an empty one starts.
      subst hc
      refine ⟨text ++ ['\n'], [], by simp, ?_, ?_⟩
      · rw [happend, List.getLast?_append, utf8Len_append]
        rfl
      · rw [happend, List.length_append, if_pos rfl]
        rfl
    · have hnone : lineStartsFrom (utf8Len text) [c] = [] := if_neg hc
      rw [hnone, List.append_nil] at happend
      refine ⟨lines, last ++ [c], by rw [htext, List.append_assoc], ?_, ?_⟩
      · rw [happend, hstart]
      · rw [happend, if_neg hc, List.length_append]
        rfl

end

namespace LineIndex

variable {source : String}

theorem toList_starts {before after : List Char} (h : source.toList = before ++ after) :
    (ofText source).starts.toList =
      lineStarts before ++ lineStartsFrom (String.utf8Len before) after := by
  change lineStarts source.toList = _
  rw [h, lineStarts, lineStartsFrom_append, Nat.zero_add]
  rfl

/-- The lines that start up to an offset are those of the text before it. -/
theorem partitionPoint_starts {before after : List Char} (h : source.toList = before ++ after) :
    partitionPoint (· ≤ String.utf8Len before) (ofText source).starts 0 (ofText source).starts.size =
      (lineStarts before).length := by
  have hsize : (ofText source).starts.size =
      (lineStarts before).length + (lineStartsFrom (String.utf8Len before) after).length := by
    rw [← Array.length_toList, toList_starts h, List.length_append]
  refine partitionPoint_eq (toList_starts h) (fun start hstart => ?_) (fun start hstart => ?_)
    (Nat.zero_le _) (by omega) le_rfl
  · rw [lineStarts, List.mem_cons] at hstart
    rcases hstart with rfl | hstart
    · simp
    · simpa using (mem_lineStartsFrom hstart).2
  · simpa using (mem_lineStartsFrom hstart).1

end LineIndex

namespace Position

open LineIndex

variable {source : String}

/-- At a boundary, the look-up gives what counting through the text before it gives. -/
theorem lookUp?_eq {p : source.Pos} {before after : String} (h : p.Splits before after) :
    lookUp? p = some (start.advanceBy before.toList) := by
  have hsource : source.toList = before.toList ++ after.toList := by
    rw [← String.toList_append, ← h.eq_append]
  have hoffset : p.offset.byteIdx = String.utf8Len before.toList := by
    rw [h.offset_eq_rawEndPos, String.byteIdx_rawEndPos, ← String.utf8ByteSize_ofList,
      String.ofList_toList]
  obtain ⟨lines, last, htext, hstart, hposition⟩ := exists_lastLine before.toList
  have hbefore : before = .ofList lines ++ .ofList last := by
    rw [← String.ofList_append, ← htext, String.ofList_toList]
  have hline : source = .ofList lines ++ (.ofList last ++ after) := by
    rw [← String.append_assoc, ← hbefore]
    exact h.eq_append
  have hfirst := String.Pos.splits_ofEqAppend hline
  have hfound : (ofText source).starts[(lineStarts before.toList).length - 1]? =
      some (String.Pos.ofEqAppend hline).offset.byteIdx := by
    rw [hfirst.offset_eq_rawEndPos, String.byteIdx_rawEndPos, String.utf8ByteSize_ofList, ← hstart,
      List.getLast?_eq_getElem?, ← Array.getElem?_toList, toList_starts hsource,
      List.getElem?_append_left (by simp [lineStarts])]
  have hslice := Text.slice?_eq hfirst (hbefore ▸ h)
  have hsearch := partitionPoint_starts hsource
  rw [← hoffset] at hsearch
  have hne : (lineStarts before.toList).length ≠ 0 := by simp [lineStarts]
  rw [lookUp?, position?, hsearch, if_neg hne, hfound, Option.bind_eq_bind, Option.bind_some]
  change Option.bind (Text.slice? source _ _) _ = _
  rw [hslice, hposition, Option.bind_some, String.length_ofList]
  rfl

/-- A boundary further on has a later position. -/
theorem lookUp?_lt {p q : source.Pos} (h : p < q) :
    ∃ here there, lookUp? p = some here ∧ lookUp? q = some there ∧ here < there := by
  obtain ⟨middle, hne, hmiddle, -⟩ := (p.splits.lt_iff_exists_eq_append q.splits).1 h
  refine ⟨_, _, lookUp?_eq p.splits, lookUp?_eq q.splits, ?_⟩
  rw [hmiddle, String.toList_append, advanceBy_append]
  exact lt_advanceBy _ (by simpa using hne)

theorem lookUp?_injective {p q : source.Pos} (h : lookUp? p = lookUp? q) : p = q := by
  have hne {p q : source.Pos} (hlt : p < q) : lookUp? p ≠ lookUp? q := by
    obtain ⟨here, there, hhere, hthere, hbefore⟩ := lookUp?_lt hlt
    rw [hhere, hthere, Ne, Option.some_inj]
    exact hbefore.ne
  rcases Std.lt_trichotomy p q with hlt | heq | hlt
  · exact absurd h (hne hlt)
  · exact heq
  · exact absurd h.symm (hne hlt)

end Position

/-- A token stands where its spelling starts. -/
theorem Lexer.Scans.exists_spelling {p q : Position} {text rest : List Char} {tokens : List Token}
    (h : Scans p text tokens q rest) : ∀ t ∈ tokens, ∃ before cs after,
      text = before ++ (cs ++ after) ∧ Denotes cs t.kind t.lexeme ∧
        t.position = p.advanceBy before := by
  induction h with
  | gap _ => simp
  | @token p q gap cs text rest kind lexeme tokens _ htoken _ _ ih =>
    rw [List.forall_mem_cons]
    refine ⟨⟨gap, cs, text, rfl, htoken, rfl⟩, fun t ht => ?_⟩
    obtain ⟨before, ds, after, rfl, hdenotes, hposition⟩ := ih t ht
    refine ⟨gap ++ (cs ++ before), ds, after, by simp, hdenotes, ?_⟩
    rw [hposition, ← Position.advanceBy_append, List.append_assoc]

/-- `t.StartsAt p`: what the token is made of starts at `p`. The end of input starts at the end of
the text, and any other token where its spelling starts. -/
def Token.StartsAt {source : String} (t : Token) (p : source.Pos) : Prop :=
  (t.kind = .endOfInput ∧ p = source.endPos) ∨
    ∃ before after cs, p.Splits before after ∧ cs <+: after.toList ∧
      Lexer.Denotes cs t.kind t.lexeme

theorem exists_startsAt_of_tokenize {source : String} {tokens : List Token}
    (h : tokenize source = .ok tokens) : ∀ t ∈ tokens, ∃ p : source.Pos, t.StartsAt p ∧
      Position.lookUp? p = some t.position := by
  obtain ⟨scanned, hscans, rfl⟩ := exists_scans_of_tokenize h
  intro t ht
  rw [List.mem_append, List.mem_singleton] at ht
  rcases ht with ht | rfl
  · obtain ⟨before, cs, after, htext, hdenotes, hposition⟩ := hscans.exists_spelling t ht
    have hsource : source = .ofList before ++ .ofList (cs ++ after) := by
      rw [← String.ofList_append, ← htext, String.ofList_toList]
    have hsplits := String.Pos.splits_ofEqAppend hsource
    refine ⟨_, .inr ⟨_, _, cs, hsplits, ?_, hdenotes⟩, ?_⟩
    · rw [String.toList_ofList]
      exact List.prefix_append cs after
    · rw [Position.lookUp?_eq hsplits, String.toList_ofList, hposition]
  · exact ⟨source.endPos, .inl ⟨rfl, rfl⟩, Position.lookUp?_eq source.splits_endPos⟩

/-- Positions that are looked up by offset are those that are counted: at every boundary between two
characters, and at the end of a text, the look-up succeeds with the line and column that come out of
counting through all characters before. They increase strictly with the offset, and the tokens of
the text stand at the positions that are looked up for the offsets where they start. -/
theorem look_up_agrees_with_counting (source : String) :
    (∀ (p : source.Pos) (before after : String), p.Splits before after →
      (LineIndex.ofText source).position? p.offset.byteIdx =
        some (Position.start.advanceBy before.toList)) ∧
    (∀ p q : source.Pos, p < q → ∃ here there, Position.lookUp? p = some here ∧
      Position.lookUp? q = some there ∧ here < there) ∧
    (∀ p q : source.Pos, Position.lookUp? p = Position.lookUp? q → p = q) ∧
    ∀ tokens, tokenize source = .ok tokens →
      (∀ t ∈ tokens, ∃ p : source.Pos, t.StartsAt p ∧ Position.lookUp? p = some t.position) ∧
      tokens.Pairwise fun t u => t.position < u.position := by
  refine ⟨fun p before after h => Position.lookUp?_eq h, fun p q h => Position.lookUp?_lt h,
    fun p q h => Position.lookUp?_injective h, fun tokens h => ?_⟩
  exact ⟨exists_startsAt_of_tokenize h, pairwise_lt_of_tokenize h⟩

/-- A literal that spans two lines, with a character of two bytes. The line feed has the offset 3,
and the next line starts right after it. -/
theorem look_up_agrees_with_counting_twoLines :
    let source := "\"é\n\"x"
    let index := LineIndex.ofText source
    let tokens : List Token := [⟨.stringLiteral, "é\n", ⟨1, 1⟩⟩, ⟨.identifier, "x", ⟨2, 2⟩⟩,
      ⟨.endOfInput, "", ⟨2, 3⟩⟩]
    index.position? 3 = some ⟨1, 3⟩ ∧ index.position? 4 = some ⟨2, 1⟩ ∧
      (∃ here there, index.position? 3 = some here ∧ index.position? 4 = some there ∧
        here < there) ∧
      tokenize source = .ok tokens ∧ tokens.Pairwise fun t u => t.position < u.position := by
  intro source index tokens
  obtain ⟨hcounts, hincreases, -, htokens⟩ := look_up_agrees_with_counting source
  have hfeed : source = "\"é" ++ "\n\"x" := by decide +kernel
  have hline : source = "\"é\n" ++ "\"x" := by decide +kernel
  have hfirst := String.Pos.splits_ofEqAppend hfeed
  have hsecond := String.Pos.splits_ofEqAppend hline
  have hlt : String.Pos.ofEqAppend hfeed < String.Pos.ofEqAppend hline :=
    (hfirst.lt_iff_exists_eq_append hsecond).2
      ⟨"\n", by decide +kernel, by decide +kernel, by decide +kernel⟩
  have hsource : tokenize source = .ok tokens := by decide +kernel
  exact ⟨hcounts _ _ _ hfirst, hcounts _ _ _ hsecond, hincreases _ _ hlt, hsource,
    (htokens tokens hsource).2⟩

end TinyPascal
