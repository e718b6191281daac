import Mathlib.Data.List.DropRight
import Mathlib.Tactic
import TinyPascal.Console.Standard

/-!
# The lines of the standard input

A text is cut into lines after its line feeds, and what is handed over of a line lacks all line
feeds and carriage returns at its end. Bytes are cut at the same places as the text that they
encode, since in UTF-8 the byte of a line feed is part of no other character.
-/
namespace TinyPascal

/-- `Lines text lines`: the text is cut after each line feed. What follows the last line feed is a
line too, unless it is empty. -/
inductive Lines : List Char → List (List Char) → Prop where
  | nil : Lines [] []
  | last {line : List Char} (hne : line ≠ []) (hline : '\n' ∉ line) : Lines line [line]
  | cons {line rest : List Char} {lines : List (List Char)} (hline : '\n' ∉ line)
      (hrest : Lines rest lines) : Lines (line ++ '\n' :: rest) ((line ++ ['\n']) :: lines)

/-- `Chomps line text`: the text is the line without all line feeds and carriage returns at its
end. -/
def Chomps (line text : List Char) : Prop :=
  ∃ ending, line = text ++ ending ∧ (∀ c ∈ ending, c = '\n' ∨ c = '\r') ∧
    ∀ c ∈ text.getLast?, c ≠ '\n' ∧ c ≠ '\r'

/-- `IsInput text input`: the lines of the text, as they are handed over. -/
def IsInput (text : String) (input : List String) : Prop :=
  ∃ lines, Lines text.toList lines ∧
    List.Forall₂ (fun line handed => Chomps line handed.toList) lines input

section

variable {α : Type} {isLast : α → Bool} {a : α} {xs : List α}

theorem cutAfter_of_forall (hne : xs ≠ []) (h : ∀ a ∈ xs, isLast a = false) :
    cutAfter isLast xs = [xs] := by
  induction xs with
  | nil => exact absurd rfl hne
  | cons a xs ih =>
    rw [List.forall_mem_cons] at h
    rw [cutAfter, if_neg (by simp [h.1])]
    cases xs with
    | nil => rfl
    | cons b xs => rw [ih (by simp) h.2]

theorem cutAfter_append_cons (h : ∀ a ∈ xs, isLast a = false) (ha : isLast a = true)
    (rest : List α) : cutAfter isLast (xs ++ a :: rest) = (xs ++ [a]) :: cutAfter isLast rest := by
  induction xs with
  | nil => rw [List.nil_append, cutAfter, if_pos ha, List.nil_append]
  | cons b xs ih =>
    rw [List.forall_mem_cons] at h
    rw [List.cons_append, cutAfter, if_neg (by simp [h.1]), ih h.2]
    rfl

end

/-- An encoding in which the line feed has a code of its own is cut where the text is cut. -/
theorem Lines.cutAfter_flatMap {β : Type} {isLast : β → Bool} {code : Char → List β} {b : β}
    (hfeed : code '\n' = [b]) (hb : isLast b = true) (hne : ∀ c, code c ≠ [])
    (hother : ∀ c, c ≠ '\n' → ∀ x ∈ code c, isLast x = false) {text : List Char}
    {lines : List (List Char)} (h : Lines text lines) :
    cutAfter isLast (text.flatMap code) = lines.map (List.flatMap code) := by
  have hline {line : List Char} (hfree : '\n' ∉ line) : ∀ x ∈ line.flatMap code,
      isLast x = false := by
    intro x hx
    obtain ⟨c, hc, hx⟩ := List.mem_flatMap.1 hx
    exact hother c (fun heq => hfree (heq ▸ hc)) x hx
  induction h with
  | nil => rfl
  | @last line hnil hfree =>
    have hcode : line.flatMap code ≠ [] := by
      obtain ⟨c, cs, rfl⟩ := List.exists_cons_of_ne_nil hnil
      simp [hne c]
    exact cutAfter_of_forall hcode (hline hfree)
  | cons hfree _ ih =>
    simp only [List.flatMap_append, List.flatMap_cons, hfeed, List.singleton_append,
      cutAfter_append_cons (hline hfree) hb, ih, List.map_cons, List.flatMap_nil, List.append_nil]

theorem exists_lines (text : List Char) : ∃ lines, Lines text lines := by
  induction text with
  | nil => exact ⟨[], .nil⟩
  | cons c text ih =>
    obtain ⟨lines, hlines⟩ := ih
    by_cases hc : c = '\n'
    · subst hc
      exact ⟨_, .cons List.not_mem_nil hlines⟩
    · -- The character joins the first of the lines that follow.
      have hfree {line : List Char} (hline : '\n' ∉ line) : '\n' ∉ c :: line := by
        simp [hline, Ne.symm hc]
      cases hlines with
      | nil => exact ⟨_, .last (by simp) (hfree (by simp))⟩
      | last _ hline => exact ⟨_, .last (by simp) (hfree hline)⟩
      | cons hline hrest => exact ⟨_, .cons (hfree hline) hrest⟩

theorem lines_iff {text : List Char} {lines : List (List Char)} :
    Lines text lines ↔ cutAfter (· == '\n') text = lines := by
  have hcut {lines : List (List Char)} (h : Lines text lines) :
      cutAfter (· == '\n') text = lines := by
    have hsingle : cutAfter (· == '\n') (text.flatMap fun c => [c]) =
        lines.map (List.flatMap fun c => [c]) := h.cutAfter_flatMap rfl rfl (by simp) (by simp)
    rwa [funext List.flatMap_singleton', List.map_id_fun'] at hsingle
  refine ⟨hcut, ?_⟩
  rintro rfl
  obtain ⟨lines, hlines⟩ := exists_lines text
  rwa [hcut hlines]

theorem byteArray_toList_loop (bytes : ByteArray) (i : ℕ) (done : List UInt8) :
    ByteArray.toList.loop bytes i done = done.reverse ++ bytes.data.toList.drop i := by
  fun_induction ByteArray.toList.loop bytes i done with
  | case1 i done hi ih =>
    have hlength : i < bytes.data.toList.length := hi
    have hget : bytes.get! i = bytes.data.toList[i] := by
      simp [ByteArray.get!, hi]
    rw [ih, List.drop_eq_getElem_cons hlength, hget]
    simp
  | case2 i done hi =>
    have hlength : bytes.data.toList.length ≤ i := Nat.le_of_not_lt hi
    simp [List.drop_eq_nil_of_le hlength]

theorem toList_toUTF8 (text : String) :
    text.toUTF8.toList = text.toList.flatMap String.utf8EncodeChar := by
  rw [ByteArray.toList, byteArray_toList_loop, String.toUTF8_eq_toByteArray,
    ← String.utf8Encode_toList, List.utf8Encode, List.toList_data_toByteArray]
  rfl

/-- Only a line feed is encoded with the byte of a line feed. -/
theorem ne_feed_of_mem_utf8EncodeChar {c : Char} (hc : c ≠ '\n') :
    ∀ b ∈ String.utf8EncodeChar c, (b == 10) = false := by
  intro b hb
  have hval : c.val.toNat ≠ 10 := by
    intro hval
    exact hc (Char.ext (UInt32.toNat_inj.1 hval))
  rw [String.utf8EncodeChar] at hb
  rw [beq_eq_false_iff_ne]
  rintro rfl
  split_ifs at hb <;> simp only [List.mem_cons, List.not_mem_nil, or_false, ← UInt8.toNat_inj,
    UInt8.toNat_ofNat', UInt8.reduceToNat] at hb <;> omega

namespace StandardInput

@[simp]
theorem decode_toByteArray (text : String) : decode text.toByteArray = .ok text := by
  rw [decode, String.fromUTF8?, dif_pos (String.isValidUTF8 _)]
  rfl

theorem decode_utf8 (line : List Char) :
    decode ⟨(line.flatMap String.utf8EncodeChar).toArray⟩ = .ok (.ofList line) := by
  have hbytes : (⟨(line.flatMap String.utf8EncodeChar).toArray⟩ : ByteArray) =
      (String.ofList line).toByteArray := by
    rw [String.toByteArray_ofList]
    apply ByteArray.ext
    rw [List.utf8Encode, ← Array.toList_inj, List.toList_data_toByteArray]
  rw [hbytes, decode_toByteArray]

theorem ofBytes_toUTF8 (text : String) : ofBytes text.toUTF8 = ofText text := by
  have hlines : Lines text.toList (cutAfter (· == '\n') text.toList) := lines_iff.2 rfl
  have hcut : cutAfter (· == 10) (text.toList.flatMap String.utf8EncodeChar) =
      (cutAfter (· == '\n') text.toList).map (List.flatMap String.utf8EncodeChar) :=
    hlines.cutAfter_flatMap rfl rfl (fun c => String.utf8EncodeChar_ne_nil)
      fun c => ne_feed_of_mem_utf8EncodeChar
  rw [ofBytes, ofText, toList_toUTF8, hcut, List.map_map]
  simp only [Function.comp_def, decode_utf8]

theorem chomps_iff {line : List Char} {handed : String} :
    Chomps line handed.toList ↔ chomp (.ofList line) = handed := by
  have hchomp : (chomp (.ofList line)).toList =
      line.rdropWhile fun c => c == '\n' || c == '\r' := by
    simp [chomp, List.rdropWhile]
  rw [← String.toList_inj, hchomp]
  constructor
  · rintro ⟨ending, rfl, hending, hlast⟩
    have hall : ∀ c ∈ ending.reverse, (c == '\n' || c == '\r') = true := by
      simpa using hending
    rw [List.rdropWhile, List.reverse_append, List.dropWhile_append_of_pos hall,
      ← List.rdropWhile, List.rdropWhile_eq_self_iff]
    intro hne
    simpa using hlast _ (List.getLast?_eq_some_getLast hne)
  · intro h
    rw [← h]
    refine ⟨line.rtakeWhile fun c => c == '\n' || c == '\r', ?_, fun c hc => ?_, fun c hc => ?_⟩
    · exact (List.rdropWhile_append_rtakeWhile ..).symm
    · simpa using List.mem_rtakeWhile_imp hc
    · obtain ⟨hne, rfl⟩ := List.mem_getLast?_eq_getLast hc
      simpa using List.rdropWhile_last_not _ line hne

/-- The lines of a text are determined by the text. -/
theorem isInput_iff {text : String} {input : List String} :
    IsInput text input ↔
      (cutAfter (· == '\n') text.toList).map (fun line => chomp (.ofList line)) = input := by
  simp only [IsInput, lines_iff, chomps_iff, exists_eq_left']
  rw [← List.forall₂_eq_eq_eq, List.forall₂_map_left_iff]

end StandardInput

end TinyPascal
