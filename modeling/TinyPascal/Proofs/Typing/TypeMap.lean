import TinyPascal.Proofs.Syntax.Anchor
import TinyPascal.Proofs.Token.Order
import TinyPascal.Proofs.Typing.Judgement

/-!
# The types by position

An analysis keeps the types of expressions by position, and a later entry replaces an earlier one at
the same place. In a program read from a source text no two expression nodes share a place, since
they are anchored to different tokens and tokens stand at increasing positions. So the types by
position are the types of the nodes, and none is lost.
-/
namespace TinyPascal

variable {symbols : SymbolTable}

/-- The entry of a node: its place and type, if it has a type. -/
def Expr.typing? (symbols : SymbolTable) (e : Expr) : Option (Position × Ty) :=
  (e.type? symbols).map fun type => (e.position, type)

theorem Expr.typing?_eq_some {e : Expr} {p : Position} {type : Ty} :
    e.typing? symbols = some (p, type) ↔ e.type? symbols = some type ∧ e.position = p := by
  simp only [typing?, Option.map_eq_some_iff, Prod.mk.injEq]
  constructor
  · rintro ⟨found, hfound, rfl, rfl⟩
    exact ⟨hfound, rfl⟩
  · rintro ⟨htype, rfl⟩
    exact ⟨type, htype, rfl, rfl⟩

theorem Expr.typings_perm (e : Expr) :
    (e.typings symbols).Perm (e.nodes.filterMap (typing? symbols)) := by
  induction e with
  | int value p | str value p | var name p =>
    rw [typings, nodes, List.nil_append, List.filterMap_cons, List.filterMap_nil, ← typing?]
    cases typing? symbols _ <;> exact .refl _
  | neg operand p ih =>
    rw [typings, nodes, List.filterMap_cons, ← typing?]
    cases typing? symbols _ with
    | none => simpa using ih
    | some entry => exact (List.perm_append_singleton _ _).trans (ih.cons entry)
  | binary op left right p ihl ihr =>
    rw [typings, nodes, List.filterMap_append, List.filterMap_cons, ← typing?, List.append_assoc]
    refine ihl.append ?_
    cases typing? symbols _ with
    | none => simpa using ihr
    | some entry => exact (List.perm_append_singleton _ _).trans (ihr.cons entry)

namespace Statement

mutual

theorem nodes_eq_flatMap_expressions : ∀ s : Statement,
    s.nodes = s.expressions.flatMap Expr.nodes
  | .assign _ _ _ => by rw [nodes, expressions, List.flatMap_singleton]
  | .read _ _ => by rw [nodes, expressions, List.flatMap_nil]
  | .write _ _ => by rw [nodes, expressions]
  | .block body _ => by rw [nodes, expressions, nodesOfAll_eq_flatMap_expressions body]
  | .ifThen _ consequent _ => by
    rw [nodes, expressions, List.flatMap_cons, nodes_eq_flatMap_expressions consequent]
  | .ifElse _ consequent alternative _ => by
    rw [nodes, expressions, List.flatMap_cons, List.flatMap_append,
      nodes_eq_flatMap_expressions consequent, nodes_eq_flatMap_expressions alternative]
  | .whileDo _ body _ => by
    rw [nodes, expressions, List.flatMap_cons, nodes_eq_flatMap_expressions body]

theorem nodesOfAll_eq_flatMap_expressions : ∀ body : List Statement,
    nodesOfAll body = (expressionsOfAll body).flatMap Expr.nodes
  | [] => by rw [nodesOfAll, expressionsOfAll, List.flatMap_nil]
  | s :: rest => by
    rw [nodesOfAll, expressionsOfAll, List.flatMap_append, nodes_eq_flatMap_expressions s,
      nodesOfAll_eq_flatMap_expressions rest]

end

end Statement

theorem Expr.HasType.of_mem_nodes {context : Context} {e node : Expr} {type : Ty}
    (h : e.HasType context type) (hnode : node ∈ e.nodes) : ∃ type, node.HasType context type := by
  induction h with
  | int value p =>
    obtain rfl := List.mem_singleton.1 hnode
    exact ⟨_, .int value p⟩
  | str value p =>
    obtain rfl := List.mem_singleton.1 hnode
    exact ⟨_, .str value p⟩
  | var p hname =>
    obtain rfl := List.mem_singleton.1 hnode
    exact ⟨_, .var p hname⟩
  | neg p hoperand ih =>
    rcases List.mem_cons.1 hnode with rfl | hnode
    · exact ⟨_, .neg p hoperand⟩
    · exact ih hnode
  | arithmetic op p hleft hright ihl ihr =>
    rcases List.mem_append.1 hnode with hnode | hnode
    · exact ihl hnode
    · rcases List.mem_cons.1 hnode with rfl | hnode
      · exact ⟨_, .arithmetic op p hleft hright⟩
      · exact ihr hnode
  | relational op p hleft hright ihl ihr =>
    rcases List.mem_append.1 hnode with hnode | hnode
    · exact ihl hnode
    · rcases List.mem_cons.1 hnode with rfl | hnode
      · exact ⟨_, .relational op p hleft hright⟩
      · exact ihr hnode

theorem Statement.IsTyped.of_mem_nodes {context : Context} {s : Statement} {node : Expr}
    (h : s.IsTyped context) (hnode : node ∈ s.nodes) : ∃ type, node.HasType context type := by
  induction h with
  | assign p _ hvalue =>
    rw [nodes] at hnode
    exact hvalue.of_mem_nodes hnode
  | read p _ =>
    rw [nodes] at hnode
    cases hnode
  | write p hvalues =>
    rw [nodes] at hnode
    obtain ⟨value, hvalue, hnode⟩ := List.mem_flatMap.1 hnode
    obtain ⟨type, htype⟩ := hvalues value hvalue
    exact htype.of_mem_nodes hnode
  | block p _ ih =>
    rw [nodes, nodesOfAll_eq_flatMap] at hnode
    obtain ⟨s, hs, hnode⟩ := List.mem_flatMap.1 hnode
    exact ih s hs hnode
  | ifThen p hcondition _ ih | whileDo p hcondition _ ih =>
    rw [nodes] at hnode
    rcases List.mem_append.1 hnode with hnode | hnode
    · exact hcondition.of_mem_nodes hnode
    · exact ih hnode
  | ifElse p hcondition _ _ ihc iha =>
    rw [nodes] at hnode
    rcases List.mem_append.1 hnode with hnode | hnode
    · exact hcondition.of_mem_nodes hnode
    · rcases List.mem_append.1 hnode with hnode | hnode
      · exact ihc hnode
      · exact iha hnode

namespace Program

variable {program : Program}

theorem types_analyze (program : Program) :
    (analyze program).types = .ofList ((Statement.expressionsOfAll program.statements).flatMap
      (Expr.typings (analyze program).symbols)) :=
  rfl

theorem typings_perm (program : Program) :
    ((Statement.expressionsOfAll program.statements).flatMap (Expr.typings symbols)).Perm
      (program.nodes.filterMap (Expr.typing? symbols)) := by
  rw [nodes, Statement.nodesOfAll_eq_flatMap_expressions, List.filterMap_flatMap]
  exact List.Perm.flatMap_left _ fun e _ => e.typings_perm

theorem pairwise_typings (h : (program.nodes.map Expr.position).Nodup) :
    ((Statement.expressionsOfAll program.statements).flatMap (Expr.typings symbols)).Pairwise
      fun a b => ¬compare a.1 b.1 = .eq := by
  refine (typings_perm program).symm.pairwise ?_ fun hab hba => hab (Std.OrientedCmp.eq_symm hba)
  rw [List.pairwise_filterMap]
  refine (List.pairwise_map.1 h).imp fun hne a ha b hb hab => ?_
  obtain ⟨-, ha⟩ := Expr.typing?_eq_some.1 ha
  obtain ⟨-, hb⟩ := Expr.typing?_eq_some.1 hb
  exact hne (by rw [ha, hb, Std.LawfulEqOrd.compare_eq_iff_eq.1 hab])

/-- Where no two nodes share a place, the type at the place of a node is its own. -/
theorem typeOf?_analyze_of_nodup (h : (program.nodes.map Expr.position).Nodup) {e : Expr}
    (he : e ∈ program.nodes) :
    (analyze program).typeOf? e = e.type? (analyze program).symbols := by
  rw [Analysis.typeOf?, types_analyze]
  cases htype : e.type? (analyze program).symbols with
  | some type =>
    refine Std.TreeMap.getElem?_ofList_of_mem (k := e.position) Std.ReflCmp.compare_self
      (pairwise_typings h) ?_
    refine (typings_perm program).mem_iff.2 (List.mem_filterMap.2 ⟨e, he, ?_⟩)
    exact Expr.typing?_eq_some.2 ⟨htype, rfl⟩
  | none =>
    refine Std.TreeMap.getElem?_ofList_of_contains_eq_false ?_
    rw [← Bool.not_eq_true, List.contains_iff_mem]
    intro hmem
    obtain ⟨⟨p, type⟩, hentry, rfl⟩ := List.mem_map.1 hmem
    obtain ⟨other, hother, hsome⟩ :=
      List.mem_filterMap.1 ((typings_perm program).mem_iff.1 hentry)
    obtain ⟨hfound, hposition⟩ := Expr.typing?_eq_some.1 hsome
    obtain rfl := List.inj_on_of_nodup_map h hother he hposition
    rw [htype] at hfound
    cases hfound

theorem size_types_of_nodup (h : (program.nodes.map Expr.position).Nodup) :
    (analyze program).types.size =
      program.nodes.countP fun e => (e.type? (analyze program).symbols).isSome := by
  rw [types_analyze, Std.TreeMap.size_ofList (pairwise_typings h), (typings_perm program).length_eq,
    List.length_filterMap_eq_countP]
  simp only [Expr.typing?, Option.isSome_map]

theorem exists_type?_of_isClean (h : (analyze program).isClean = true) {e : Expr}
    (he : e ∈ program.nodes) : ∃ type, e.type? (analyze program).symbols = some type := by
  rw [Analysis.isClean, List.isEmpty_iff] at h
  obtain ⟨-, hviolations⟩ := List.append_eq_nil_iff.1 h
  rw [nodes, Statement.nodesOfAll_eq_flatMap] at he
  obtain ⟨s, hs, he⟩ := List.mem_flatMap.1 he
  have htyped := (Statement.violationsOfAll_eq_nil_iff _).1 hviolations s hs
  obtain ⟨type, htype⟩ := htyped.of_mem_nodes he
  exact ⟨type, Expr.type?_eq_some_iff_hasType.2 htype⟩

end Program

/-- The types by position are faithful for every program read from a source text. The nodes of an
expression are anchored, in order, to different tokens of its text, and so are the nodes of the
program. No two of them share a place, and the map holds the type of each node that has one and
nothing else. -/
theorem types_faithful_of_source {source : String} {tokens : List Token} {program : Program}
    (htokens : tokenize source = .ok tokens) (hprogram : parse tokens = .ok program) :
    (∀ ts e rest, Rule.expression ts = .ok e rest →
      ∃ consumed, ts = consumed ++ rest ∧ Anchored consumed e.nodes) ∧
    Anchored tokens program.nodes ∧
    (program.nodes.map Expr.position).Nodup ∧
    (∀ e ∈ program.nodes,
      (analyze program).typeOf? e = e.type? (analyze program).symbols) ∧
    (analyze program).types.size =
      program.nodes.countP (fun e => (e.type? (analyze program).symbols).isSome) ∧
    ((analyze program).isClean = true →
      (analyze program).types.size = program.nodes.length ∧
      ∀ e ∈ program.nodes, ∃ type, (analyze program).typeOf? e = some type) := by
  have hanchored := anchored_of_parse hprogram
  have hnodup := hanchored.nodup_position
    ((pairwise_lt_of_tokenize htokens).imp fun hlt => hlt.ne)
  have htypeOf {e : Expr} (he : e ∈ program.nodes) := Program.typeOf?_analyze_of_nodup hnodup he
  have hsize := Program.size_types_of_nodup hnodup
  refine ⟨fun ts e rest => Rule.anchored_of_expression, hanchored, hnodup, fun e => htypeOf, hsize,
    fun hclean => ⟨?_, fun e he => ?_⟩⟩
  · rw [hsize, List.countP_eq_length]
    exact fun e he => Option.isSome_iff_exists.2 (Program.exists_type?_of_isClean hclean he)
  · rw [htypeOf he]
    exact Program.exists_type?_of_isClean hclean he

/-- A program with a sign, parentheses and operators of both kinds: ten nodes in all. -/
def signedSum : String :=
  "program p; var x : integer; begin x := -(1 + (x)) * 2; write(\"a\" < \"b\", (x)) end."

theorem types_faithful_of_source_signedSum :
    ∃ tokens program, tokenize signedSum = .ok tokens ∧ parse tokens = .ok program ∧
      program.nodes.length = 10 ∧ (program.nodes.map Expr.position).Nodup ∧
      (analyze program).types.size = 10 := by
  have hreads : (match tokenize signedSum with
      | .ok tokens => (parse tokens).toOption.any fun program =>
        program.nodes.length == 10 && (analyze program).isClean
      | .error _ => false) = true := by decide +kernel
  cases htokens : tokenize signedSum with
  | error e => simp [htokens] at hreads
  | ok tokens =>
    cases hprogram : parse tokens with
    | error e => simp [htokens, hprogram, Except.toOption] at hreads
    | ok program =>
      simp only [htokens, hprogram, Except.toOption, Option.any_some, Bool.and_eq_true,
        beq_iff_eq] at hreads
      obtain ⟨hlength, hclean⟩ := hreads
      obtain ⟨-, -, hnodup, -, -, hfull⟩ := types_faithful_of_source htokens hprogram
      exact ⟨tokens, program, rfl, hprogram, hlength, hnodup, hlength ▸ (hfull hclean).1⟩

end TinyPascal
