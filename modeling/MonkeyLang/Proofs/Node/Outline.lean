import MonkeyLang.Node.Outline
import MonkeyLang.Proofs.Token.Lexical

/-!
What an outline shows of a tree. Its lines are those of a walk through the tree that comes to each
node before its children and, where there are any, once more behind them (`outline_written`). Where no
text has a line's end or a quote in it, the shape of the tree can be had back from its outline
(`ofText_outline`).
-/

namespace MonkeyLang

/-- A tree of which only the labels, the texts and the order of the nodes are left. -/
inductive Shape where
  | node (label text : String) (below : List Shape)
  deriving Repr

/-- A place of a walk through a tree: a node without children, or the beginning or the end of one with
children. `more` tells whether another node of the same parent follows. -/
inductive Visit where
  | leaf (depth : Nat) (label text : String) (more : Bool)
  | opening (depth : Nat) (label text : String)
  | closing (depth : Nat) (more : Bool)
  deriving DecidableEq, Repr

namespace Visit

def comma (more : Bool) : String := if more then "," else ""

/-- What a line shows behind its blanks. -/
def body : Visit → String
  | leaf _ label text more => label ++ "('" ++ text ++ "')" ++ comma more
  | opening _ label text => label ++ "('" ++ text ++ "', nodes=["
  | closing _ more => "])" ++ comma more

def depth : Visit → Nat
  | leaf depth .. | opening depth .. | closing depth _ => depth

def blanks (count : Nat) : String := String.ofList (List.replicate count ' ')

/-- A line is set in by four blanks for each level and each node around. -/
def line (level : Nat) (visit : Visit) : String := blanks (4 * (level + visit.depth)) ++ visit.body

/-- A line stands at a level as at level zero, set in by the blanks of the level. -/
theorem line_eq (level : Nat) (visit : Visit) :
    visit.line level = blanks (4 * level) ++ visit.line 0 := by
  have further : blanks (4 * (level + visit.depth)) = blanks (4 * level) ++ blanks (4 * visit.depth) := by
    rw [blanks, Nat.mul_add, ← List.replicate_append_replicate, String.ofList_append]
    rfl
  rw [line, line, further, Nat.zero_add, String.append_assoc]

/-- The node that a walk comes to for the first time. -/
def entry? : Visit → Option (Nat × String × String)
  | leaf depth label text _ | opening depth label text => some (depth, label, text)
  | closing .. => none

end Visit

namespace Shape

mutual
/-- The walk through a tree that stands at some depth. -/
def visits (depth : Nat) (more : Bool) : Shape → List Visit
  | node label text below =>
    if below.isEmpty then [.leaf depth label text more]
    else .opening depth label text :: (visitsAll (depth + 1) below ++ [.closing depth more])

def visitsAll (depth : Nat) : List Shape → List Visit
  | [] => []
  | first :: rest => first.visits depth (!rest.isEmpty) ++ visitsAll depth rest
end

end Shape

namespace Node

def shape (node : Node) : Shape :=
  .node node.label node.text (node.children.attach.map fun ⟨child, _⟩ => shape child)
termination_by node.height
decreasing_by exact height_lt_of_mem_children ‹_›

theorem shape_eq (node : Node) :
    node.shape = .node node.label node.text (node.children.map shape) := by
  rw [shape]
  exact congrArg (Shape.node _ _) List.attach_map_val

theorem preorder_eq (depth : Nat) (node : Node) :
    node.preorder depth = (depth, node) :: node.children.flatMap (preorder (depth + 1)) := by
  rw [preorder]
  simp only [List.flatMap_subtype, List.unattach_attach]

theorem outline_eq_enclose (level : Nat) (node : Node) :
    node.outline level =
      enclose level (margin level ++ node.label ++ "('" ++ node.text ++ "'")
        (node.children.map (outline (level + 1))) := by
  rw [outline]
  exact congrArg (enclose _ _) List.attach_map_val

theorem margin_eq (level : Nat) : margin level = Visit.blanks (4 * level) := rfl

theorem enclose_of_ne_nil {inner : List String} (some : inner ≠ []) (level : Nat) (opening : String) :
    enclose level opening inner =
      opening ++ ", nodes=[\n" ++ ",\n".intercalate inner ++ "\n" ++ margin level ++ "])" := by
  cases inner with
  | nil => exact absurd rfl some
  | cons first rest => rfl

/-- What holds of a node wherever it holds of its children holds of all nodes. -/
theorem children_induction {motive : Node → Prop}
    (step : ∀ node, (∀ child ∈ node.children, motive child) → motive node) (node : Node) :
    motive node :=
  step node fun child _ => children_induction step child
termination_by node.height
decreasing_by exact height_lt_of_mem_children ‹_›

end Node

namespace Shape

theorem visits_ne_nil (shape : Shape) (depth : Nat) (more : Bool) : shape.visits depth more ≠ [] := by
  obtain ⟨label, text, below⟩ := shape
  rw [visits]
  split
  · exact List.cons_ne_nil _ _
  · exact List.cons_ne_nil _ _

theorem visits_parent {label text : String} {below : List Shape} (parent : below ≠ []) (depth : Nat)
    (more : Bool) :
    (node label text below).visits depth more =
      .opening depth label text :: (visitsAll (depth + 1) below ++ [.closing depth more]) := by
  rw [visits, if_neg (by rwa [List.isEmpty_iff])]

theorem visitsAll_ne_nil {shapes : List Shape} (some : shapes ≠ []) (depth : Nat) :
    visitsAll depth shapes ≠ [] := by
  cases shapes with
  | nil => exact absurd rfl some
  | cons first rest => exact List.append_ne_nil_of_left_ne_nil (first.visits_ne_nil _ _) _

/-- The text of a walk, a line for each of its places. -/
def written (level : Nat) (visits : List Visit) : String :=
  "\n".intercalate (visits.map (Visit.line level))

theorem written_append {level : Nat} {first second : List Visit} (some : first ≠ [])
    (some' : second ≠ []) :
    written level (first ++ second) = written level first ++ "\n" ++ written level second := by
  rw [written, List.map_append]
  exact String.intercalate_append_of_ne_nil (by simpa using some) (by simpa using some')

end Shape

namespace Node

open Shape (written written_append visitsAll)

/-- The outlines of siblings are the walks through them, if they are so where another one follows and
where none does. -/
theorem outlines_written {level depth : Nat} {nodes : List Node} (some : nodes ≠ [])
    (each : ∀ node ∈ nodes, ∀ more,
      node.outline (level + depth) ++ Visit.comma more = written level (node.shape.visits depth more)) :
    ",\n".intercalate (nodes.map (outline (level + depth))) =
      written level (visitsAll depth (nodes.map shape)) := by
  induction nodes with
  | nil => exact absurd rfl some
  | cons first rest ih =>
      obtain ⟨here, others⟩ := List.forall_mem_cons.mp each
      cases rest with
      | nil =>
          have last := here false
          rw [Visit.comma, if_neg (by decide), String.append_empty] at last
          rw [List.map_singleton, List.map_singleton, String.intercalate_singleton, last, visitsAll,
            visitsAll, List.append_nil]
          rfl
      | cons second further =>
          have first_more := here true
          rw [Visit.comma, if_pos rfl] at first_more
          have nonempty : (second :: further).map shape ≠ [] := by simp
          rw [show (first :: second :: further).map shape =
              first.shape :: (second :: further).map shape from rfl, visitsAll,
            written_append (first.shape.visits_ne_nil _ _) (Shape.visitsAll_ne_nil nonempty _),
            ← ih (List.cons_ne_nil _ _) others, List.map_cons,
            String.intercalate_cons_of_ne_nil (by simp)]
          change _ = written level (first.shape.visits depth true) ++ "\n" ++ _
          rw [← first_more, show ",\n" = "," ++ "\n" from rfl]
          simp only [String.append_assoc]

theorem outline_written (level : Nat) (node : Node) : ∀ depth more,
    node.outline (level + depth) ++ Visit.comma more = written level (node.shape.visits depth more) := by
  induction node using children_induction with
  | step node ih =>
  intro depth more
  rw [outline_eq_enclose, shape_eq]
  by_cases leaf : node.children = []
  · rw [leaf, List.map_nil, List.map_nil, Shape.visits]
    simp only [enclose, List.isEmpty_nil, if_true, written, List.map_singleton,
      String.intercalate_singleton, Visit.line, Visit.depth, Visit.body, margin_eq]
    rw [show "')" = "'" ++ ")" from rfl]
    simp only [String.append_assoc]
  · have below : node.children.map shape ≠ [] := by simpa using leaf
    have inner := outlines_written leaf fun child member => ih child member (depth + 1)
    rw [Shape.visits_parent below, ← List.singleton_append,
      written_append (List.cons_ne_nil _ _) (by simp),
      written_append (Shape.visitsAll_ne_nil below _) (List.cons_ne_nil _ _), ← inner]
    simp only [enclose_of_ne_nil (fun empty => leaf (List.map_eq_nil_iff.mp empty)), written,
      List.map_singleton, String.intercalate_singleton, Visit.line, Visit.depth, Visit.body, margin_eq]
    rw [show ", nodes=[\n" = ", nodes=[" ++ "\n" from rfl, show "', nodes=[" = "'" ++ ", nodes=[" from rfl]
    simp only [String.append_assoc, Nat.add_assoc]

/-- A walk comes to the nodes in preorder. -/
theorem entries_visits (node : Node) : ∀ depth more,
    (node.shape.visits depth more).filterMap Visit.entry? =
      (node.preorder depth).map fun entry => (entry.1, entry.2.label, entry.2.text) := by
  induction node using children_induction with
  | step node ih =>
  intro depth more
  have below : ∀ nodes : List Node, nodes ⊆ node.children →
      (visitsAll (depth + 1) (nodes.map shape)).filterMap Visit.entry? =
        (nodes.flatMap (preorder (depth + 1))).map
          fun entry => (entry.1, entry.2.label, entry.2.text) := by
    intro nodes
    induction nodes with
    | nil => exact fun _ => rfl
    | cons first rest ih' =>
        intro within
        obtain ⟨here, others⟩ := List.cons_subset.mp within
        rw [List.map_cons, visitsAll, List.filterMap_append, ih first here, ih' others,
          List.flatMap_cons, List.map_append]
  rw [shape_eq, preorder_eq, List.map_cons, ← below node.children (List.Subset.refl _)]
  by_cases leaf : node.children = []
  · rw [leaf]
    rfl
  · rw [Shape.visits_parent (by simpa using leaf), List.filterMap_cons, List.filterMap_append]
    exact congrArg (List.cons _) (List.append_nil _)

/-- What is handed down from nodes to their children holds of all that a walk comes to. -/
theorem preorder_forall {property : Node → Prop}
    (inherited : ∀ node, property node → ∀ child ∈ node.children, property child) (node : Node) :
    property node → ∀ depth, ∀ entry ∈ node.preorder depth, property entry.2 := by
  induction node using children_induction with
  | step node ih =>
  intro holds depth
  rw [preorder_eq, List.forall_mem_cons]
  refine ⟨holds, ?_⟩
  rw [List.forall_mem_flatMap]
  intro child member
  exact ih child member (inherited node holds child member) (depth + 1)

end Node

/-- What a line says of the shape of the tree. -/
inductive Mark where
  | leaf (label text : String)
  | opening (label text : String)
  | closing
  deriving DecidableEq, Repr

def Visit.mark : Visit → Mark
  | leaf _ label text _ => .leaf label text
  | opening _ label text => .opening label text
  | closing .. => .closing

namespace Mark

/-- Reads what a line shows behind its blanks. The text of a node stands in quotes, behind which a node
without children is closed. -/
def ofBody (shown : List Char) : Mark :=
  if shown.head? = some ']' then .closing
  else
    let label := shown.takeWhile (· ≠ '(')
    let quoted := (shown.dropWhile (· ≠ '(')).drop 2
    let text := quoted.takeWhile (· ≠ '\'')
    let behind := (quoted.dropWhile (· ≠ '\'')).drop 1
    if behind.head? = some ')' then .leaf (String.ofList label) (String.ofList text)
    else .opening (String.ofList label) (String.ofList text)

def ofLine (line : List Char) : Mark := ofBody (line.dropWhile (· = ' '))

end Mark

namespace Shape

/-- The trees built so far: those of the innermost node that is not closed yet, in front of which stand
the labels, texts and earlier siblings of the nodes around it. -/
abbrev Pending := List (String × String × List Shape) × List Shape

def grow : Pending → Mark → Pending
  | (around, done), .leaf label text => (around, done ++ [.node label text []])
  | (around, done), .opening label text => ((label, text, done) :: around, [])
  | ((label, text, earlier) :: around, done), .closing => (around, earlier ++ [.node label text done])
  | ([], done), .closing => ([], done)

/-- The shape that the lines of a text show. -/
def ofText (text : List Char) : Option Shape :=
  (((text.splitOn '\n').map Mark.ofLine).foldl grow ([], [])).2.head?

mutual
theorem grow_visits : ∀ (shape : Shape) (depth : Nat) (more : Bool)
    (around : List (String × String × List Shape)) (done : List Shape),
    ((shape.visits depth more).map Visit.mark).foldl grow (around, done) = (around, done ++ [shape])
  | .node label text [], depth, more, around, done => rfl
  | .node label text (first :: rest), depth, more, around, done => by
    have inner := grow_visitsAll (first :: rest) (depth + 1) ((label, text, done) :: around) []
    rw [visits_parent (List.cons_ne_nil _ _), List.map_cons, List.foldl_cons, List.map_append,
      List.foldl_append]
    change List.foldl grow (List.foldl grow ((label, text, done) :: around, []) _) _ = _
    rw [inner]
    rfl

theorem grow_visitsAll : ∀ (shapes : List Shape) (depth : Nat)
    (around : List (String × String × List Shape)) (done : List Shape),
    ((visitsAll depth shapes).map Visit.mark).foldl grow (around, done) = (around, done ++ shapes)
  | [], depth, around, done => by
    rw [visitsAll, List.append_nil]
    rfl
  | first :: rest, depth, around, done => by
    rw [visitsAll, List.map_append, List.foldl_append, grow_visits first, grow_visitsAll rest,
      List.append_assoc]
    rfl
end

end Shape

open Token (takeWhile_run dropWhile_run)

structure IsLabel (label : String) : Prop where
  nonempty : label.toList ≠ []
  letters : ∀ c ∈ label.toList, c.isAlpha = true

theorem IsLabel.head_isAlpha {label : String} (isLabel : IsLabel label) (rest : List Char) :
    ∀ c ∈ (label.toList ++ rest).head?, c.isAlpha = true := by
  intro c first
  cases shape : label.toList with
  | nil => exact absurd shape isLabel.nonempty
  | cons initial others =>
      rw [shape] at first
      cases first
      exact isLabel.letters c (shape ▸ List.mem_cons_self)

theorem Node.isLabel_label (node : Node) : IsLabel node.label := by
  cases node <;> simp only [label]
  all_goals exact ⟨by decide, List.all_eq_true.mp (by decide)⟩

/-- A text that can stand in quotes on a line. -/
def OnLine (text : String) : Prop := ∀ c ∈ text.toList, c ≠ '\n' ∧ c ≠ '\''

instance (text : String) : Decidable (OnLine text) :=
  List.decidableBAll (fun c => c ≠ '\n' ∧ c ≠ '\'') text.toList

namespace OnLine

@[simp] theorem append {first second : String} :
    OnLine (first ++ second) ↔ OnLine first ∧ OnLine second := by
  rw [OnLine, String.toList_append, List.forall_mem_append]
  rfl

theorem intercalate {separator : String} (plain : OnLine separator) {texts : List String}
    (each : ∀ text ∈ texts, OnLine text) : OnLine (separator.intercalate texts) := by
  induction texts with
  | nil => exact List.forall_mem_nil _
  | cons first rest ih =>
      obtain ⟨here, others⟩ := List.forall_mem_cons.mp each
      by_cases last : rest = []
      · rw [last, String.intercalate_singleton]
        exact here
      · rw [String.intercalate_cons_of_ne_nil last]
        exact append.mpr ⟨append.mpr ⟨here, plain⟩, ih others⟩

end OnLine

theorem Mark.ofBody_quoted {label text : String} (isLabel : IsLabel label) (onLine : OnLine text)
    (behind : List Char) :
    ofBody (label.toList ++ '(' :: '\'' :: (text.toList ++ '\'' :: behind)) =
      if behind.head? = some ')' then .leaf label text else .opening label text := by
  have first : (label.toList ++ '(' :: '\'' :: (text.toList ++ '\'' :: behind)).head? ≠ some ']' := by
    intro bracket
    cases isLabel.head_isAlpha _ _ bracket
  have plain : ∀ c ∈ label.toList, decide (c ≠ '(') = true := by
    intro c member
    have letter := isLabel.letters c member
    exact decide_eq_true (by rintro rfl; cases letter)
  have unquoted : ∀ c ∈ text.toList, decide (c ≠ '\'') = true :=
    fun c member => decide_eq_true (onLine c member).2
  simp only [ofBody]
  rw [if_neg first, takeWhile_run plain (by simp),
    dropWhile_run plain (by simp)]
  simp only [List.drop_succ_cons, List.drop_zero]
  rw [takeWhile_run unquoted (by simp), dropWhile_run unquoted (by simp)]
  simp only [List.drop_succ_cons, List.drop_zero, String.ofList_toList]

namespace Visit

def Legible (visit : Visit) : Prop :=
  ∀ entry ∈ visit.entry?, IsLabel entry.2.1 ∧ OnLine entry.2.2

theorem newline_not_mem_blanks (count : Nat) : '\n' ∉ (blanks count).toList := by
  rw [blanks, String.toList_ofList, List.mem_replicate]
  rintro ⟨-, ⟨⟩⟩

theorem newline_not_mem_comma (more : Bool) : '\n' ∉ (comma more).toList := by
  cases more <;> decide

theorem newline_not_mem_line {visit : Visit} (legible : visit.Legible) (level : Nat) :
    '\n' ∉ (visit.line level).toList := by
  have label {label text : String} (isLabel : IsLabel label) (onLine : OnLine text) :
      '\n' ∉ label.toList ∧ '\n' ∉ text.toList := by
    refine ⟨fun member => ?_, fun member => (onLine _ member).1 rfl⟩
    cases isLabel.letters _ member
  rw [line, String.toList_append, List.mem_append]
  rintro (inside | inside)
  · exact newline_not_mem_blanks _ inside
  · cases visit with
    | leaf depth name text more =>
        obtain ⟨isLabel, onLine⟩ := legible _ rfl
        have plain := label isLabel onLine
        have commas := newline_not_mem_comma more
        simp [body, plain, commas] at inside
    | opening depth name text =>
        obtain ⟨isLabel, onLine⟩ := legible _ rfl
        have plain := label isLabel onLine
        simp [body, plain] at inside
    | closing depth more =>
        have commas := newline_not_mem_comma more
        simp [body, commas] at inside

theorem mark_line {visit : Visit} (legible : visit.Legible) (level : Nat) :
    Mark.ofLine (visit.line level).toList = visit.mark := by
  have behind {shown : List Char} (starts : ∀ c ∈ shown.head?, c ≠ ' ') :
      ((blanks (4 * (level + visit.depth))).toList ++ shown).dropWhile (· = ' ') = shown := by
    apply dropWhile_run
    · intro c member
      rw [blanks, String.toList_ofList, List.mem_replicate] at member
      exact decide_eq_true member.2
    · intro c member
      simpa using starts c member
  rw [line, String.toList_append, Mark.ofLine]
  have unmarked {label : String} (isLabel : IsLabel label) (rest : List Char) :
      ∀ c ∈ (label.toList ++ rest).head?, c ≠ ' ' := by
    rintro c first rfl
    cases isLabel.head_isAlpha rest _ first
  cases visit with
  | leaf depth label text more =>
      obtain ⟨isLabel, onLine⟩ := legible _ rfl
      have shown : (body (.leaf depth label text more)).toList =
          label.toList ++ '(' :: '\'' :: (text.toList ++ '\'' :: ')' :: (comma more).toList) := by
        simp [body]
      rw [shown, behind (unmarked isLabel _), Mark.ofBody_quoted isLabel onLine]
      rfl
  | opening depth label text =>
      obtain ⟨isLabel, onLine⟩ := legible _ rfl
      have shown : (body (.opening depth label text)).toList =
          label.toList ++ '(' :: '\'' :: (text.toList ++ '\'' :: ", nodes=[".toList) := by
        simp [body]
      rw [shown, behind (unmarked isLabel _), Mark.ofBody_quoted isLabel onLine]
      rfl
  | closing depth more =>
      have shown : (body (.closing depth more)).toList = ']' :: ')' :: (comma more).toList := by
        rw [body, String.toList_append]
        rfl
      rw [behind (by rw [shown]; simp), shown]
      rfl

end Visit

namespace Node

open Shape (written)

variable {node : Node}

theorem legible_of_preorder (onLine : ∀ entry ∈ node.preorder 0, OnLine entry.2.text) :
    ∀ visit ∈ node.shape.visits 0 false, visit.Legible := by
  intro visit member shown entry
  have inside : shown ∈ (node.shape.visits 0 false).filterMap Visit.entry? :=
    List.mem_filterMap.mpr ⟨visit, member, entry⟩
  rw [entries_visits, List.mem_map] at inside
  obtain ⟨⟨depth, inner⟩, within, rfl⟩ := inside
  exact ⟨inner.isLabel_label, onLine _ within⟩

variable (legible : ∀ visit ∈ node.shape.visits 0 false, visit.Legible) (level : Nat)
include legible

/-- The lines of an outline are those of the walk through the tree. -/
theorem splitOn_outline : (node.outline level).toList.splitOn '\n' =
    (node.shape.visits 0 false).map fun visit => (visit.line level).toList := by
  have walk : node.outline level = written level (node.shape.visits 0 false) := by
    rw [← outline_written, Visit.comma, if_neg (by decide), String.append_empty, Nat.add_zero]
  have lines : (written level (node.shape.visits 0 false)).toList =
      ['\n'].intercalate ((node.shape.visits 0 false).map fun visit => (visit.line level).toList) := by
    rw [written, String.toList_intercalate, List.map_map]
    rfl
  rw [walk, lines, List.splitOn_intercalate]
  · rw [List.forall_mem_map]
    exact fun visit member => Visit.newline_not_mem_line (legible visit member) level
  · simpa using node.shape.visits_ne_nil 0 false

/-- The shape of a tree can be had back from its outline. -/
theorem ofText_outline : Shape.ofText (node.outline level).toList = some node.shape := by
  have marks : ((node.shape.visits 0 false).map fun visit => (visit.line level).toList).map
      Mark.ofLine = (node.shape.visits 0 false).map Visit.mark := by
    rw [List.map_map]
    exact List.map_congr_left fun visit member => Visit.mark_line (legible visit member) level
  rw [Shape.ofText, splitOn_outline legible, marks, Shape.grow_visits]
  rfl

end Node

end MonkeyLang
