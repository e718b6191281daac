import Mathlib.Tactic
import TinyPascal.Outline
import TinyPascal.Proofs.Text.Escaped

/-!
# Drawings determine outlines

The four characters in front of a line tell where it belongs: a tee or a corner starts a child, and
a rule or blanks go on with it. So the lines of an outline determine it, whatever its labels are. If
every label stays on one line, the drawing can be cut into its lines and determines the outline too.
-/
namespace TinyPascal.Outline

mutual

/-- The labels of an outline, each before those of its children. -/
def labels : Outline → List String
  | node label children => label :: labelsOfAll children

def labelsOfAll : List Outline → List String
  | [] => []
  | child :: rest => child.labels ++ labelsOfAll rest

end

def OneLined (outline : Outline) : Prop :=
  ∀ label ∈ outline.labels, '\n' ∉ label.toList

theorem lines_ne_nil (outline : Outline) : outline.lines ≠ [] := by
  cases outline with
  | node label children => simp [lines]

theorem append_ne_append {s t : String} {c d : Char} (hs : s.toList.head? = some c)
    (ht : t.toList.head? = some d) (h : c ≠ d) (x y : String) : s ++ x ≠ t ++ y := by
  intro heq
  have hhead := congrArg (fun line => line.toList.head?) heq
  simp only [String.toList_append, List.head?_append, hs, ht, Option.some_or] at hhead
  exact h (Option.some.inj hhead)

/-- The lines of a child determine the child's own lines and what follows them, if what follows
does not go on with the child. -/
theorem hang_append_inj {first further : String} {ls ms us vs : List String} (hls : ls ≠ [])
    (hms : ms ≠ []) (hus : ∀ line ∈ us.head?, ∀ x, line ≠ further ++ x)
    (hvs : ∀ line ∈ vs.head?, ∀ x, line ≠ further ++ x)
    (h : hang first further ls ++ us = hang first further ms ++ vs) : ls = ms ∧ us = vs := by
  cases ls with
  | nil => exact absurd rfl hls
  | cons l ls =>
    cases ms with
    | nil => exact absurd rfl hms
    | cons m ms =>
      obtain ⟨hfirst, hrest⟩ := List.cons.inj h
      obtain rfl := (String.append_right_inj first).1 hfirst
      have hgoesOn (ls : List String) :
          ∀ line ∈ ls.map (further ++ ·), ¬ ∀ x, line ≠ further ++ x := by
        intro line hline hstops
        obtain ⟨x, -, hx⟩ := List.mem_map.1 hline
        exact hstops x hx.symm
      obtain ⟨hmap, rfl⟩ := Text.append_inj_of_stops (hgoesOn ls) (hgoesOn ms) hus hvs hrest
      have hinjective : Function.Injective (further ++ ·) :=
        fun _ _ => (String.append_right_inj further).1
      rw [List.map_injective_iff.2 hinjective hmap]
      exact ⟨rfl, rfl⟩

theorem branches_cons_cons (child next : Outline) (rest : List Outline) :
    branches (child :: next :: rest) =
      hang "├── " "│   " child.lines ++ branches (next :: rest) := by
  rw [branches]
  simp

theorem exists_head?_last (child : Outline) :
    ∃ x, (branches [child]).head? = some ("└── " ++ x) := by
  obtain ⟨label, children⟩ := child
  exact ⟨label, by simp [branches, lines, hang]⟩

theorem exists_head?_more (child next : Outline) (rest : List Outline) :
    ∃ x, (branches (child :: next :: rest)).head? = some ("├── " ++ x) := by
  obtain ⟨label, children⟩ := child
  exact ⟨label, by simp [branches_cons_cons, lines, hang]⟩

/-- What starts a child does not go on with the one before it. -/
theorem head?_branches_ne (child : Outline) (rest : List Outline) :
    ∀ line ∈ (branches (child :: rest)).head?, ∀ x, line ≠ "│   " ++ x := by
  intro line hline x
  cases rest with
  | nil =>
    obtain ⟨y, hy⟩ := exists_head?_last child
    rw [hy, Option.mem_some_iff] at hline
    rw [← hline]
    exact append_ne_append rfl rfl (by decide) y x
  | cons next rest =>
    obtain ⟨y, hy⟩ := exists_head?_more child next rest
    rw [hy, Option.mem_some_iff] at hline
    rw [← hline]
    exact append_ne_append rfl rfl (by decide) y x

theorem branches_last_ne_more (child child' next : Outline) (rest : List Outline) :
    branches [child] ≠ branches (child' :: next :: rest) := by
  intro h
  obtain ⟨x, hx⟩ := exists_head?_last child
  obtain ⟨y, hy⟩ := exists_head?_more child' next rest
  rw [h, hy] at hx
  exact append_ne_append rfl rfl (by decide) y x (Option.some.inj hx)

theorem branches_ne_nil (child : Outline) (rest : List Outline) :
    branches (child :: rest) ≠ [] := by
  intro h
  cases rest with
  | nil =>
    obtain ⟨x, hx⟩ := exists_head?_last child
    rw [h] at hx
    cases hx
  | cons next rest =>
    obtain ⟨x, hx⟩ := exists_head?_more child next rest
    rw [h] at hx
    cases hx

mutual

theorem lines_injective : ∀ {o o' : Outline}, o.lines = o'.lines → o = o'
  | node label children, node label' children', h => by
    rw [lines, lines] at h
    obtain ⟨rfl, hchildren⟩ := List.cons.inj h
    rw [branches_injective hchildren]

theorem branches_injective : ∀ {cs cs' : List Outline}, branches cs = branches cs' → cs = cs'
  | [], [], _ => rfl
  | [], c' :: rest', h => absurd h.symm (branches_ne_nil c' rest')
  | c :: rest, [], h => absurd h (branches_ne_nil c rest)
  | [c], [c'], h => by
    have hlines : c.lines = c'.lines ∧ ([] : List String) = [] :=
      hang_append_inj c.lines_ne_nil c'.lines_ne_nil (by simp) (by simp)
        (by simpa [branches] using h)
    rw [lines_injective hlines.1]
  | [c], c' :: d' :: rest', h => absurd h (branches_last_ne_more c c' d' rest')
  | c :: d :: rest, [c'], h => absurd h.symm (branches_last_ne_more c' c d rest)
  | c :: d :: rest, c' :: d' :: rest', h => by
    rw [branches_cons_cons, branches_cons_cons] at h
    obtain ⟨hlines, hrest⟩ := hang_append_inj c.lines_ne_nil c'.lines_ne_nil
      (head?_branches_ne d rest) (head?_branches_ne d' rest') h
    rw [lines_injective hlines, branches_injective hrest]

end

theorem lineFeed_notMem_hang {first further : String} {ls : List String}
    (hfirst : '\n' ∉ first.toList) (hfurther : '\n' ∉ further.toList)
    (hls : ∀ l ∈ ls, '\n' ∉ l.toList) : ∀ line ∈ hang first further ls, '\n' ∉ line.toList := by
  cases ls with
  | nil => simp [hang]
  | cons l ls =>
    intro line hline
    rw [hang, List.mem_cons, List.mem_map] at hline
    rcases hline with rfl | ⟨m, hm, rfl⟩
    · rw [String.toList_append, List.mem_append, not_or]
      exact ⟨hfirst, hls l List.mem_cons_self⟩
    · rw [String.toList_append, List.mem_append, not_or]
      exact ⟨hfurther, hls m (List.mem_cons_of_mem _ hm)⟩

mutual

theorem lineFeed_notMem_lines : ∀ o : Outline, o.OneLined → ∀ line ∈ o.lines, '\n' ∉ line.toList
  | node label children, h => by
    rw [OneLined, labels, List.forall_mem_cons] at h
    rw [lines, List.forall_mem_cons]
    exact ⟨h.1, lineFeed_notMem_branches children h.2⟩

theorem lineFeed_notMem_branches : ∀ cs : List Outline,
    (∀ label ∈ labelsOfAll cs, '\n' ∉ label.toList) → ∀ line ∈ branches cs, '\n' ∉ line.toList
  | [], _ => by simp [branches]
  | [c], h => by
    rw [labelsOfAll, List.forall_mem_append] at h
    rw [branches]
    exact lineFeed_notMem_hang (by decide) (by decide) (lineFeed_notMem_lines c h.1)
  | c :: d :: rest, h => by
    rw [labelsOfAll, List.forall_mem_append] at h
    rw [branches_cons_cons, List.forall_mem_append]
    exact ⟨lineFeed_notMem_hang (by decide) (by decide) (lineFeed_notMem_lines c h.1),
      lineFeed_notMem_branches (d :: rest) h.2⟩

end

theorem toList_join_cons (l : String) (ls : List String) :
    (String.join ((l :: ls).map (· ++ "\n"))).toList =
      l.toList ++ '\n' :: (String.join (ls.map (· ++ "\n"))).toList := by
  simp [String.join_cons]

theorem join_lines_inj {ls ms : List String} (hls : ∀ l ∈ ls, '\n' ∉ l.toList)
    (hms : ∀ m ∈ ms, '\n' ∉ m.toList)
    (h : String.join (ls.map (· ++ "\n")) = String.join (ms.map (· ++ "\n"))) : ls = ms := by
  rw [← String.toList_inj] at h
  induction ls generalizing ms with
  | nil =>
    cases ms with
    | nil => rfl
    | cons m ms =>
      rw [toList_join_cons] at h
      simp at h
  | cons l ls ih =>
    cases ms with
    | nil =>
      rw [toList_join_cons] at h
      simp at h
    | cons m ms =>
      rw [List.forall_mem_cons] at hls hms
      have hopen {l : String} (hl : '\n' ∉ l.toList) : ∀ c ∈ l.toList, ¬ c = '\n' := by
        rintro c hc rfl
        exact hl hc
      rw [toList_join_cons, toList_join_cons] at h
      obtain ⟨hline, hrest⟩ :=
        Text.append_inj_of_stops (hopen hls.1) (hopen hms.1) (by simp) (by simp) h
      rw [String.toList_inj.1 hline, ih hls.2 hms.2 (List.cons.inj hrest).2]

/-- A drawing determines the outline, if every label stays on one line. -/
theorem render_injective {o o' : Outline} (ho : o.OneLined) (ho' : o'.OneLined)
    (h : o.render = o'.render) : o = o' :=
  lines_injective (join_lines_inj (lineFeed_notMem_lines o ho) (lineFeed_notMem_lines o' ho') h)

end TinyPascal.Outline
