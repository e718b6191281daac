import TinyPascal.Interpreter
import TinyPascal.Proofs.Outline
import TinyPascal.Proofs.Syntax.RoundTrip
import TinyPascal.Proofs.Token.Layout
import TinyPascal.Syntax.Outline

/-!
# Outlines determine programs

An outline shows a skeleton: a tree of nodes, each with the names, the value or the operator that
belong to it. A label determines its node, with or without a type behind it, since names, numerals
and operators hold no blank and no comma, and a string ends at its closing quote. Only the two minus
operators share a label, and they differ in the number of their operands. So the drawing of a
program that is read from a source text determines the program up to positions.
-/
namespace TinyPascal

inductive Node where
  | program (name : String)
  | declaration (names : List String) (type : Ty)
  | assignment (target : String)
  | read (targets : List String)
  | write
  | block
  | conditional
  | loop
  | condition
  | consequent
  | alternative
  | body
  | number (value : Integer)
  | text (value : String)
  | reference (name : String)
  | operation (mark : Mark)
deriving DecidableEq, Repr

namespace Node

def label : Node → String
  | program name => "Program: " ++ name
  | declaration names type => "Declaration: " ++ ", ".intercalate names ++ " : " ++ type.name
  | assignment target => "Assignment: " ++ target ++ " :="
  | read targets => "Read: " ++ ", ".intercalate targets
  | write => "Write"
  | block => "Block"
  | conditional => "If"
  | loop => "While"
  | condition => "Condition"
  | consequent => "Then"
  | alternative => "Else"
  | body => "Body"
  | number value => "Num: " ++ value.text
  | text value => "String: \"" ++ .ofList (Text.escape value.toList) ++ "\""
  | reference name => "Var: " ++ name
  | operation mark => "Op: " ++ mark.spelling

/-- The label of a node, with a type behind it if there is one. -/
def shown (node : Node) : Option Ty → String
  | some type => node.label ++ " : " ++ type.name
  | none => node.label

/-- The names of a node can be written, and there is one in every list; its number is not negative.
-/
def IsWritten : Node → Prop
  | program name | assignment name | reference name => IsName name
  | declaration names _ | read names => names ≠ [] ∧ ∀ name ∈ names, IsName name
  | number value => 0 ≤ value.toInt
  | _ => True

/-- The first letters of a label, which tell the kind of the node. -/
def initials : Node → List Char
  | program _ => ['P', 'r']
  | declaration _ _ => ['D', 'e']
  | assignment _ => ['A', 's']
  | read _ => ['R', 'e']
  | write => ['W', 'r']
  | block => ['B', 'l']
  | conditional => ['I', 'f']
  | loop => ['W', 'h']
  | condition => ['C', 'o']
  | consequent => ['T', 'h']
  | alternative => ['E', 'l']
  | body => ['B', 'o']
  | number _ => ['N', 'u']
  | text _ => ['S', 't']
  | reference _ => ['V', 'a']
  | operation _ => ['O', 'p']

end Node

/-- What may follow a name in a label. -/
def EndsName (c : Char) : Prop := c = ' ' ∨ c = ','

theorem IsName.notMem {name : String} (h : IsName name) {c : Char}
    (hc : Lexer.isWordPart c = false) : c ∉ name.toList := by
  obtain ⟨d, ds, hname, hd, hds⟩ := h.isWord
  rw [hname, List.mem_cons, not_or]
  constructor
  · rintro rfl
    simp [Lexer.isWordPart_of_isWordStart hd] at hc
  · intro hmem
    simp [hds c hmem] at hc

theorem IsName.not_endsName {name : String} (h : IsName name) :
    ∀ c ∈ name.toList, ¬ EndsName c := by
  rintro c hc (rfl | rfl)
  · exact h.notMem (by decide +kernel) hc
  · exact h.notMem (by decide +kernel) hc

/-- A name determines where it ends. -/
theorem IsName.append_inj {name name' : String} (h : IsName name) (h' : IsName name')
    {u v : List Char} (hu : ∀ c ∈ u.head?, EndsName c) (hv : ∀ c ∈ v.head?, EndsName c)
    (heq : name.toList ++ u = name'.toList ++ v) : name = name' ∧ u = v := by
  obtain ⟨hname, hrest⟩ := Text.append_inj_of_stops h.not_endsName h'.not_endsName hu hv heq
  exact ⟨String.toList_inj.1 hname, hrest⟩

namespace Identifier

def furtherNames (names : List String) : List Char :=
  names.flatMap fun name => ',' :: ' ' :: name.toList

theorem toList_intercalate_cons (name : String) (names : List String) :
    (", ".intercalate (name :: names)).toList = name.toList ++ furtherNames names := by
  induction names generalizing name with
  | nil => simp [furtherNames]
  | cons next names ih =>
    rw [String.intercalate_cons_cons, String.toList_append, String.toList_append, ih]
    simp [furtherNames]

theorem endsName_furtherNames (names : List String) {u : List Char}
    (hu : ∀ c ∈ u.head?, c = ' ') : ∀ c ∈ (furtherNames names ++ u).head?, EndsName c := by
  intro c hc
  cases names with
  | nil => exact .inl (hu c hc)
  | cons name names =>
    cases hc
    exact .inr rfl

/-- Names after commas determine where their list ends, if no comma follows it. -/
theorem furtherNames_append_inj {names names' : List String} (h : ∀ name ∈ names, IsName name)
    (h' : ∀ name ∈ names', IsName name) {u v : List Char} (hu : ∀ c ∈ u.head?, c = ' ')
    (hv : ∀ c ∈ v.head?, c = ' ') (heq : furtherNames names ++ u = furtherNames names' ++ v) :
    names = names' ∧ u = v := by
  induction names generalizing names' with
  | nil =>
    cases names' with
    | nil => exact ⟨rfl, heq⟩
    | cons name' names' =>
      rw [show u = _ from heq] at hu
      exact absurd (hu ',' rfl) (by decide)
  | cons name names ih =>
    cases names' with
    | nil =>
      rw [show v = _ from heq.symm] at hv
      exact absurd (hv ',' rfl) (by decide)
    | cons name' names' =>
      rw [List.forall_mem_cons] at h h'
      simp only [furtherNames, List.flatMap_cons, List.cons_append, List.append_assoc,
        List.cons.injEq, true_and] at heq
      obtain ⟨rfl, hrest⟩ := h.1.append_inj h'.1 (endsName_furtherNames names hu)
        (endsName_furtherNames names' hv) heq
      obtain ⟨rfl, rfl⟩ := ih h.2 h'.2 hrest
      exact ⟨rfl, rfl⟩

theorem furtherNames_of_ne_nil {names : List String} (h : names ≠ []) :
    furtherNames names = ',' :: ' ' :: (", ".intercalate names).toList := by
  cases names with
  | nil => exact absurd rfl h
  | cons name names =>
    rw [toList_intercalate_cons]
    simp [furtherNames]

/-- A list of names determines where it ends, if no comma follows it. -/
theorem intercalate_append_inj {names names' : List String}
    (h : names ≠ [] ∧ ∀ name ∈ names, IsName name)
    (h' : names' ≠ [] ∧ ∀ name ∈ names', IsName name) {u v : List Char}
    (hu : ∀ c ∈ u.head?, c = ' ') (hv : ∀ c ∈ v.head?, c = ' ')
    (heq : (", ".intercalate names).toList ++ u = (", ".intercalate names').toList ++ v) :
    names = names' ∧ u = v := by
  apply furtherNames_append_inj h.2 h'.2 hu hv
  rw [furtherNames_of_ne_nil h.1, furtherNames_of_ne_nil h'.1, List.cons_append, List.cons_append,
    List.cons_append, List.cons_append, heq]

end Identifier

namespace Node

variable {m n : Node} {type type' : Option Ty}

def suffix : Option Ty → List Char
  | some type => ' ' :: ':' :: ' ' :: type.name.toList
  | none => []

theorem toList_shown (n : Node) (type : Option Ty) :
    (n.shown type).toList = n.label.toList ++ suffix type := by
  cases type with
  | none => simp [shown, suffix]
  | some type => simp [shown, suffix]

theorem head?_suffix (type : Option Ty) : ∀ c ∈ (suffix type).head?, c = ' ' := by
  cases type with
  | none => simp [suffix]
  | some type => simp [suffix]

theorem initials_eq (n : Node) (type : Option Ty) :
    n.initials = (n.shown type).toList.take 2 := by
  rw [toList_shown]
  cases n <;> simp [initials, label]

theorem endsName_suffix (type : Option Ty) : ∀ c ∈ (suffix type).head?, EndsName c :=
  fun c hc => .inl (head?_suffix type c hc)

/-- What holds no blank determines where it ends, before a type or at the end. -/
theorem append_suffix_inj {s t : String} (hs : ' ' ∉ s.toList) (ht : ' ' ∉ t.toList)
    (h : s.toList ++ suffix type = t.toList ++ suffix type') : s = t := by
  have hopen {s : String} (hs : ' ' ∉ s.toList) : ∀ c ∈ s.toList, ¬ c = ' ' := by
    rintro c hc rfl
    exact hs hc
  exact String.toList_inj.1 (Text.append_inj_of_stops (hopen hs) (hopen ht) (head?_suffix type)
    (head?_suffix type') h).1

theorem blank_notMem_numeral {value : Integer} (h : 0 ≤ value.toInt) :
    ' ' ∉ value.text.toList := by
  rw [Integer.toList_text_of_nonneg h]
  intro hmem
  exact absurd (Text.isDigit_of_mem_decimalDigits hmem) (by decide)

theorem blank_notMem_spelling (mark : Mark) : ' ' ∉ mark.spelling.toList := by
  cases mark <;> decide

theorem name_inj : ∀ {type type' : Ty} {u v : List Char},
    type.name.toList ++ u = type'.name.toList ++ v → type = type'
  | .integer, .integer, _, _, _ | .string, .string, _, _, _ => rfl
  | .integer, .string, _, _, h | .string, .integer, _, _, h => by simp [Ty.name] at h

/-- A label determines its node, with or without a type: nodes of different kinds differ in their
initials. -/
theorem shown_inj (hm : m.IsWritten) (hn : n.IsWritten) (h : m.shown type = n.shown type') :
    m = n := by
  have hinitials : m.initials = n.initials := by
    rw [initials_eq m type, initials_eq n type', h]
  rw [← String.toList_inj, toList_shown, toList_shown] at h
  cases m <;> cases n <;> first
    | rfl
    | (simp [initials] at hinitials; done)
    | simp only [label, String.toList_append, List.append_assoc, List.append_cancel_left_eq,
        String.toList_ofList] at h
  case program.program | reference.reference =>
    rw [(IsName.append_inj hm hn (endsName_suffix type) (endsName_suffix type') h).1]
  case assignment.assignment =>
    rw [(IsName.append_inj hm hn (by simp [EndsName]) (by simp [EndsName]) h).1]
  case read.read =>
    rw [(Identifier.intercalate_append_inj hm hn (head?_suffix type) (head?_suffix type') h).1]
  case declaration.declaration =>
    obtain ⟨rfl, htype⟩ := Identifier.intercalate_append_inj hm hn (by simp) (by simp) h
    rw [name_inj (List.append_cancel_left htype)]
  case number.number =>
    have htext := append_suffix_inj (blank_notMem_numeral hm) (blank_notMem_numeral hn) h
    have hvalue := (Integer.ofText?_text_of_nonneg hm).symm.trans
      (htext ▸ Integer.ofText?_text_of_nonneg hn)
    rw [Option.some.inj hvalue]
  case text.text value value' =>
    have hvalue := (Text.escapedAll_escape value.toList).append_quote_inj
      (Text.escapedAll_escape value'.toList) h
    rw [String.toList_inj.1 hvalue.1]
  case operation.operation mark mark' =>
    have hspelling := append_suffix_inj (blank_notMem_spelling mark) (blank_notMem_spelling mark') h
    have hsplit := Lexer.splitMark_spelling mark
    rw [hspelling, Lexer.splitMark_spelling] at hsplit
    cases hsplit
    rfl

theorem lineFeed_notMem_intercalate {names : List String} (h : ∀ name ∈ names, IsName name) :
    '\n' ∉ (", ".intercalate names).toList := by
  have hname {name : String} (hname : IsName name) : '\n' ∉ name.toList :=
    hname.notMem (by decide +kernel)
  cases names with
  | nil => simp
  | cons name names =>
    rw [List.forall_mem_cons] at h
    rw [Identifier.toList_intercalate_cons, List.mem_append, Identifier.furtherNames,
      List.mem_flatMap]
    rintro (hmem | ⟨next, hnext, hmem⟩)
    · exact hname h.1 hmem
    · simp [hname (h.2 next hnext)] at hmem

theorem lineFeed_notMem_label (h : n.IsWritten) : '\n' ∉ n.label.toList := by
  have hname {name : String} (hname : IsName name) : '\n' ∉ name.toList :=
    hname.notMem (by decide +kernel)
  cases n with
  | program name | assignment name | reference name => simp [label, hname h]
  | declaration names type =>
    have hnames := lineFeed_notMem_intercalate h.2
    cases type <;> simpa [label, Ty.name] using hnames
  | read names =>
    have hnames := lineFeed_notMem_intercalate h.2
    simpa [label] using hnames
  | number value =>
    have hdigits : '\n' ∉ value.text.toList := by
      rw [Integer.toList_text_of_nonneg h]
      intro hmem
      exact absurd (Text.isDigit_of_mem_decimalDigits hmem) (by decide)
    simp [label, hdigits]
  | text value => simp [label, (Text.escapedAll_escape value.toList).lineFeed_notMem]
  | operation mark => cases mark <;> decide
  | _ => decide

theorem lineFeed_notMem_shown (h : n.IsWritten) (type : Option Ty) :
    '\n' ∉ (n.shown type).toList := by
  rw [toList_shown, List.mem_append, not_or]
  refine ⟨lineFeed_notMem_label h, ?_⟩
  rcases type with _ | _ | _ <;> decide

end Node

inductive Skeleton where
  | node (root : Node) (parts : List Skeleton)

def Expr.skeleton : Expr → Skeleton
  | int value _ => .node (.number value) []
  | str value _ => .node (.text value) []
  | var name _ => .node (.reference name) []
  | neg operand _ => .node (.operation .minus) [operand.skeleton]
  | binary op left right _ => .node (.operation op.mark) [left.skeleton, right.skeleton]

namespace Statement

mutual

def skeleton : Statement → Skeleton
  | assign target value _ => .node (.assignment target.name) [value.skeleton]
  | read targets _ => .node (.read (targets.map Identifier.name)) []
  | write values _ => .node .write (values.map Expr.skeleton)
  | block body _ => .node .block (skeletons body)
  | ifThen condition consequent _ =>
    .node .conditional [.node .condition [condition.skeleton],
      .node .consequent [consequent.skeleton]]
  | ifElse condition consequent alternative _ =>
    .node .conditional [.node .condition [condition.skeleton],
      .node .consequent [consequent.skeleton], .node .alternative [alternative.skeleton]]
  | whileDo condition body _ =>
    .node .loop [.node .condition [condition.skeleton], .node .body [body.skeleton]]

def skeletons : List Statement → List Skeleton
  | [] => []
  | s :: rest => s.skeleton :: skeletons rest

end

end Statement

def Declaration.skeleton (d : Declaration) : Skeleton :=
  .node (.declaration (d.names.map Identifier.name) d.type) []

def Program.skeleton (program : Program) : Skeleton :=
  .node (.program program.name.name)
    (program.declarations.map Declaration.skeleton ++ Statement.skeletons program.statements)

namespace Outline

mutual

/-- The outline shows the skeleton: its labels are those of the nodes, which can be written. A type
may stand behind any of them. -/
inductive Shows : Outline → Skeleton → Prop where
  | node {label : String} {children : List Outline} {root : Node} {parts : List Skeleton}
      (hroot : root.IsWritten) (type : Option Ty) (hlabel : label = root.shown type)
      (hparts : ShowsAll children parts) : Shows (.node label children) (.node root parts)

inductive ShowsAll : List Outline → List Skeleton → Prop where
  | nil : ShowsAll [] []
  | cons {child : Outline} {rest : List Outline} {part : Skeleton} {parts : List Skeleton}
      (hchild : Shows child part) (hrest : ShowsAll rest parts) :
      ShowsAll (child :: rest) (part :: parts)

end

mutual

theorem Shows.unique : ∀ {o : Outline} {s s' : Skeleton}, o.Shows s → o.Shows s' → s = s'
  | .node _ _, .node _ _, .node _ _, .node hroot _ hlabel hparts,
      .node hroot' _ hlabel' hparts' => by
    rw [Node.shown_inj hroot hroot' (hlabel.symm.trans hlabel'), hparts.unique hparts']

theorem ShowsAll.unique : ∀ {os : List Outline} {ss ss' : List Skeleton}, ShowsAll os ss →
    ShowsAll os ss' → ss = ss'
  | [], _, _, .nil, .nil => rfl
  | _ :: _, _, _, .cons hchild hrest, .cons hchild' hrest' => by
    rw [hchild.unique hchild', hrest.unique hrest']

end

mutual

/-- The labels of an outline that shows a skeleton stay on one line each. -/
theorem Shows.oneLined : ∀ {o : Outline} {s : Skeleton}, o.Shows s → o.OneLined
  | .node _ _, .node _ _, .node hroot type hlabel hparts => by
    rw [OneLined, labels, List.forall_mem_cons, hlabel]
    exact ⟨Node.lineFeed_notMem_shown hroot type, hparts.oneLined⟩

theorem ShowsAll.oneLined : ∀ {os : List Outline} {ss : List Skeleton}, ShowsAll os ss →
    ∀ label ∈ labelsOfAll os, '\n' ∉ label.toList
  | [], _, .nil => by simp [labelsOfAll]
  | _ :: _, _, .cons hchild hrest => by
    rw [labelsOfAll, List.forall_mem_append]
    exact ⟨hchild.oneLined, hrest.oneLined⟩

end

theorem ShowsAll.append {os os' : List Outline} {ss ss' : List Skeleton} (h : ShowsAll os ss)
    (h' : ShowsAll os' ss') : ShowsAll (os ++ os') (ss ++ ss') := by
  induction os generalizing ss with
  | nil =>
    cases h
    exact h'
  | cons o os ih =>
    cases h with
    | cons hchild hrest => exact .cons hchild (ih hrest)

theorem ShowsAll.map {α : Type} {outline : α → Outline} {skeleton : α → Skeleton} {as : List α}
    (h : ∀ a ∈ as, (outline a).Shows (skeleton a)) :
    ShowsAll (as.map outline) (as.map skeleton) := by
  induction as with
  | nil => exact .nil
  | cons a as ih =>
    rw [List.forall_mem_cons] at h
    exact .cons h.1 (ih h.2)

theorem Shows.single {label : String} {child : Outline} {root : Node} {part : Skeleton}
    (hroot : root.IsWritten) (hlabel : label = root.shown none) (hchild : child.Shows part) :
    (Outline.node label [child]).Shows (.node root [part]) :=
  .node hroot none hlabel (.cons hchild .nil)

end Outline

section

open Outline

variable {types : Option TypeMap}

theorem Expr.shows {e : Expr} (h : e.WellFormed) : (e.outline types).Shows e.skeleton := by
  induction e with
  | int value p | var name p =>
    exact .node h (types.bind fun types => types[p]?) rfl .nil
  | str value p => exact .node trivial (types.bind fun types => types[p]?) rfl .nil
  | neg operand p ih =>
    exact .node trivial (types.bind fun types => types[p]?) rfl (.cons (ih h) .nil)
  | binary op left right p ihl ihr =>
    exact .node trivial (types.bind fun types => types[p]?) rfl
      (.cons (ihl h.1) (.cons (ihr h.2) .nil))

theorem Identifier.isWritten_names {names : List Identifier}
    (h : names ≠ [] ∧ ∀ i ∈ names, IsName i.name) :
    names.map name ≠ [] ∧ ∀ text ∈ names.map name, IsName text :=
  ⟨by simpa using h.1, by simpa using h.2⟩

namespace Statement

mutual

theorem shows : ∀ {s : Statement}, s.WellFormed → (s.outline types).Shows s.skeleton
  | .assign target value p, h => by
    rw [WellFormed] at h
    rw [outline, skeleton]
    exact .single h.1 rfl (Expr.shows h.2)
  | .read targets p, h => by
    rw [WellFormed] at h
    rw [outline, skeleton]
    exact .node (Identifier.isWritten_names h) none rfl .nil
  | .write values p, h => by
    rw [WellFormed] at h
    rw [outline, skeleton]
    exact .node trivial none rfl (.map fun e he => Expr.shows (h.2 e he))
  | .block body p, h => by
    rw [WellFormed] at h
    rw [outline, skeleton]
    exact .node trivial none rfl (showsAll h.2)
  | .ifThen condition consequent p, h => by
    rw [WellFormed] at h
    rw [outline, skeleton]
    exact .node trivial none rfl (.cons (.single trivial rfl (Expr.shows h.1))
      (.cons (.single trivial rfl (shows h.2)) .nil))
  | .ifElse condition consequent alternative p, h => by
    rw [WellFormed] at h
    rw [outline, skeleton]
    exact .node trivial none rfl (.cons (.single trivial rfl (Expr.shows h.1))
      (.cons (.single trivial rfl (shows h.2.1))
        (.cons (.single trivial rfl (shows h.2.2.2)) .nil)))
  | .whileDo condition body p, h => by
    rw [WellFormed] at h
    rw [outline, skeleton]
    exact .node trivial none rfl (.cons (.single trivial rfl (Expr.shows h.1))
      (.cons (.single trivial rfl (shows h.2)) .nil))

theorem showsAll : ∀ {body : List Statement}, WellFormedAll body →
    ShowsAll (outlines types body) (skeletons body)
  | [], _ => by
    rw [outlines, skeletons]
    exact .nil
  | s :: rest, h => by
    rw [WellFormedAll] at h
    rw [outlines, skeletons]
    exact .cons (shows h.1) (showsAll h.2)

end

end Statement

theorem Declaration.shows {d : Declaration} (h : d.WellFormed) : d.outline.Shows d.skeleton :=
  .node (Identifier.isWritten_names ⟨h.ne_nil, h.isName⟩) none rfl .nil

theorem Program.shows {p : Program} (h : p.WellFormed) :
    (p.outline types).Shows p.skeleton := by
  refine .node h.isName none rfl ?_
  exact (ShowsAll.map fun d hd => Declaration.shows (h.declarations d hd)).append
    (Statement.showsAll h.statements)

end

theorem map_eq_of_map_eq {α β γ : Type} {f : α → β} {g : α → γ}
    (h : ∀ a a', f a = f a' → g a = g a') {as as' : List α} (hmap : as.map f = as'.map f) :
    as.map g = as'.map g := by
  induction as generalizing as' with
  | nil =>
    obtain rfl := List.map_eq_nil_iff.1 hmap.symm
    rfl
  | cons a as ih =>
    cases as' with
    | nil => cases hmap
    | cons a' as' =>
      obtain ⟨hhead, htail⟩ := List.cons.inj hmap
      rw [List.map_cons, List.map_cons, h a a' hhead, ih htail]

theorem Identifier.erase_eq_of_name_eq (i j : Identifier) (h : i.name = j.name) :
    i.erase = j.erase := by
  rw [erase, erase, h]

theorem BinaryOp.mark_inj {op op' : BinaryOp} (h : op.mark = op'.mark) : op = op' :=
  Option.some.inj ((ofMark?_mark op).symm.trans (h ▸ ofMark?_mark op'))

theorem Expr.erase_eq_of_skeleton_eq (e e' : Expr) (h : e.skeleton = e'.skeleton) :
    e.erase = e'.erase := by
  induction e generalizing e' with
  | int value p | str value p | var name p =>
    cases e' <;> simp_all [skeleton, erase]
  | neg operand p ih =>
    cases e' with
    | neg operand' p' =>
      simp only [skeleton, Skeleton.node.injEq, List.cons.injEq, and_true, true_and] at h
      rw [erase, erase, ih operand' h]
    | _ => simp [skeleton] at h
  | binary op left right p ihl ihr =>
    cases e' with
    | binary op' left' right' p' =>
      simp only [skeleton, Skeleton.node.injEq, Node.operation.injEq, List.cons.injEq,
        and_true] at h
      obtain ⟨hop, hleft, hright⟩ := h
      rw [erase, erase, BinaryOp.mark_inj hop, ihl left' hleft, ihr right' hright]
    | _ => simp [skeleton] at h

namespace Statement

mutual

theorem erase_eq_of_skeleton_eq : ∀ s s' : Statement, s.skeleton = s'.skeleton →
    s.erase = s'.erase
  | .assign target value p, s', h => by
    cases s' with
    | assign target' value' p' =>
      simp only [skeleton, Skeleton.node.injEq, Node.assignment.injEq, List.cons.injEq,
        and_true] at h
      rw [erase, erase, Identifier.erase_eq_of_name_eq _ _ h.1,
        Expr.erase_eq_of_skeleton_eq _ _ h.2]
    | _ => simp [skeleton] at h
  | .read targets p, s', h => by
    cases s' with
    | read targets' p' =>
      simp only [skeleton, Skeleton.node.injEq, Node.read.injEq, and_true] at h
      rw [erase, erase, map_eq_of_map_eq Identifier.erase_eq_of_name_eq h]
    | _ => simp [skeleton] at h
  | .write values p, s', h => by
    cases s' with
    | write values' p' =>
      simp only [skeleton, Skeleton.node.injEq, true_and] at h
      rw [erase, erase, map_eq_of_map_eq Expr.erase_eq_of_skeleton_eq h]
    | _ => simp [skeleton] at h
  | .block body p, s', h => by
    cases s' with
    | block body' p' =>
      simp only [skeleton, Skeleton.node.injEq, true_and] at h
      rw [erase, erase, eraseAll_eq_of_skeletons_eq _ _ h]
    | _ => simp [skeleton] at h
  | .ifThen condition consequent p, s', h => by
    cases s' with
    | ifThen condition' consequent' p' =>
      simp only [skeleton, Skeleton.node.injEq, List.cons.injEq, and_true, true_and] at h
      rw [erase, erase, Expr.erase_eq_of_skeleton_eq _ _ h.1, erase_eq_of_skeleton_eq _ _ h.2]
    | _ => simp [skeleton] at h
  | .ifElse condition consequent alternative p, s', h => by
    cases s' with
    | ifElse condition' consequent' alternative' p' =>
      simp only [skeleton, Skeleton.node.injEq, List.cons.injEq, and_true, true_and] at h
      rw [erase, erase, Expr.erase_eq_of_skeleton_eq _ _ h.1,
        erase_eq_of_skeleton_eq _ _ h.2.1, erase_eq_of_skeleton_eq _ _ h.2.2]
    | _ => simp [skeleton] at h
  | .whileDo condition body p, s', h => by
    cases s' with
    | whileDo condition' body' p' =>
      simp only [skeleton, Skeleton.node.injEq, List.cons.injEq, and_true, true_and] at h
      rw [erase, erase, Expr.erase_eq_of_skeleton_eq _ _ h.1, erase_eq_of_skeleton_eq _ _ h.2]
    | _ => simp [skeleton] at h

theorem eraseAll_eq_of_skeletons_eq : ∀ body body' : List Statement,
    skeletons body = skeletons body' → eraseAll body = eraseAll body'
  | [], [], _ => rfl
  | [], _ :: _, h | _ :: _, [], h => by simp [skeletons] at h
  | s :: rest, s' :: rest', h => by
    rw [skeletons, skeletons] at h
    obtain ⟨hs, hrest⟩ := List.cons.inj h
    rw [eraseAll, eraseAll, erase_eq_of_skeleton_eq s s' hs,
      eraseAll_eq_of_skeletons_eq rest rest' hrest]

end

end Statement

theorem Declaration.erase_eq_of_skeleton_eq (d d' : Declaration)
    (h : d.skeleton = d'.skeleton) : d.erase = d'.erase := by
  simp only [skeleton, Skeleton.node.injEq, Node.declaration.injEq, and_true] at h
  rw [erase, erase, map_eq_of_map_eq Identifier.erase_eq_of_name_eq h.1, h.2]

def Skeleton.NoDeclaration : Skeleton → Prop
  | node (.declaration _ _) _ => False
  | _ => True

theorem Statement.noDeclaration_head (body : List Statement) :
    ∀ s ∈ (skeletons body).head?, s.NoDeclaration := by
  cases body with
  | nil => simp [skeletons]
  | cons s rest =>
    rw [skeletons]
    rintro _ ⟨⟩
    cases s <;> (rw [skeleton]; trivial)

theorem Program.erase_eq_of_skeleton_eq {p q : Program} (h : p.skeleton = q.skeleton) :
    p.erase = q.erase := by
  simp only [skeleton, Skeleton.node.injEq, Node.program.injEq] at h
  obtain ⟨hname, hparts⟩ := h
  have hdeclarations (ds : List Declaration) :
      ∀ s ∈ ds.map Declaration.skeleton, ¬ s.NoDeclaration := by
    intro s hs
    obtain ⟨d, -, rfl⟩ := List.mem_map.1 hs
    exact id
  obtain ⟨hds, hbody⟩ := Text.append_inj_of_stops (hdeclarations p.declarations)
    (hdeclarations q.declarations) (Statement.noDeclaration_head p.statements)
    (Statement.noDeclaration_head q.statements) hparts
  rw [erase, erase, Identifier.erase_eq_of_name_eq _ _ hname,
    map_eq_of_map_eq Declaration.erase_eq_of_skeleton_eq hds,
    Statement.eraseAll_eq_of_skeletons_eq _ _ hbody]

theorem wellFormed_of_parseSource {source : String} {p : Program}
    (h : parseSource source = .ok p) : p.WellFormed := by
  unfold parseSource at h
  cases htokens : tokenize source with
  | error e => simp [htokens] at h
  | ok tokens =>
    cases hparse : parse tokens with
    | error e => simp [htokens, hparse] at h
    | ok q =>
      simp only [htokens, hparse, Except.ok.injEq] at h
      exact h ▸ wellFormed_of_parse htokens hparse

/-- The drawing of a program loses nothing but positions. Every label stays on one line, so the
drawing determines the outline; the labels, with or without types, determine the skeleton that the
outline shows; and the skeleton determines the program up to positions. -/
theorem drawing_determines_program {source source' : String} {p q : Program}
    (hp : parseSource source = .ok p) (hq : parseSource source' = .ok q)
    (types types' : Option TypeMap) :
    (p.outline types).OneLined ∧ (∀ s, (p.outline types).Shows s ↔ s = p.skeleton) ∧
    (p.render types = q.render types' →
      p.outline types = q.outline types' ∧ p.skeleton = q.skeleton ∧ p.erase = q.erase) := by
  have hshows : (p.outline types).Shows p.skeleton :=
    Program.shows (wellFormed_of_parseSource hp)
  have hshows' : (q.outline types').Shows q.skeleton :=
    Program.shows (wellFormed_of_parseSource hq)
  refine ⟨hshows.oneLined, fun s => ⟨fun hs => hs.unique hshows, fun hs => hs ▸ hshows⟩, ?_⟩
  intro h
  have houtline : p.outline types = q.outline types' :=
    Outline.render_injective hshows.oneLined hshows'.oneLined h
  have hskeleton : p.skeleton = q.skeleton := (houtline ▸ hshows).unique hshows'
  exact ⟨houtline, hskeleton, Program.erase_eq_of_skeleton_eq hskeleton⟩

/-- A program with a string that looks like the end of a label, and with both minus operators. -/
def spacious : String :=
  "program p;
  begin
    write(\"\\\" : integer\", 1 - -2)
  end."

def cramped : String :=
  "program p;begin write(\"\\\" : integer\",1- -2)end."

theorem drawing_determines_program_cramped :
    ∃ p q, parseSource spacious = .ok p ∧ parseSource cramped = .ok q ∧
      p.statements.map Statement.position ≠ q.statements.map Statement.position ∧
      p.render none = q.render (some ∅) ∧ p.erase = q.erase := by
  have hreads : ((parseSource spacious).toOption.bind fun p =>
      (parseSource cramped).toOption.map fun q =>
        p.statements.map Statement.position != q.statements.map Statement.position &&
          p.render none == q.render (some ∅)) = some true := by
    decide +kernel
  cases hp : parseSource spacious with
  | error d =>
    rw [hp] at hreads
    cases hreads
  | ok p =>
    cases hq : parseSource cramped with
    | error d =>
      rw [hp, hq] at hreads
      cases hreads
    | ok q =>
      simp only [hp, hq, Except.toOption, Option.bind_some, Option.map_some, Option.some.injEq,
        Bool.and_eq_true, bne_iff_ne, beq_iff_eq] at hreads
      exact ⟨p, q, rfl, rfl, hreads.1, hreads.2,
        ((drawing_determines_program hp hq none (some ∅)).2.2 hreads.2).2.2⟩

end TinyPascal
