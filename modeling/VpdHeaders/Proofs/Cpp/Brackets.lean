import VpdHeaders.Proofs.Cpp.Parts

/-! # Matching the brackets of scanned text

Tokens are read from the last one back. A closing bracket starts a level of its own, and the opening
one ends it. -/
namespace VpdHeaders.Cpp

inductive Bracket | brace | paren
  deriving DecidableEq, Repr

/-- A token that is no bracket, or a pair of brackets with all that stands between them. -/
inductive Node
  | leaf (t : Token)
  | group (bracket : Bracket) (inside : List Node)

inductive Edge
  | opening (bracket : Bracket)
  | closing (bracket : Bracket)

def Token.edge? : Token → Option Edge
  | .symbol '\x7b' => some (.opening .brace)
  | .symbol '\x7d' => some (.closing .brace)
  | .symbol '(' => some (.opening .paren)
  | .symbol ')' => some (.closing .paren)
  | _ => none

/-- The nodes of the level that is being read, and of the levels around it, the innermost first, each
with the bracket that closes the level inside it. -/
structure Levels where
  nodes : List Node
  outer : List (Bracket × List Node)

namespace Levels

def add (t : Token) (levels : Levels) : Option Levels :=
  match t.edge?, levels.outer with
  | none, outer => some ⟨.leaf t :: levels.nodes, outer⟩
  | some (.closing b), outer => some ⟨[], (b, levels.nodes) :: outer⟩
  | some (.opening b), (b', behind) :: outer =>
    if b = b' then some ⟨.group b levels.nodes :: behind, outer⟩ else none
  | some (.opening _), [] => none

def addAll : List Token → Levels → Option Levels
  | [], levels => some levels
  | t :: ts, levels => (addAll ts levels).bind (add t)

theorem addAll_append (ts us : List Token) (levels : Levels) :
    addAll (ts ++ us) levels = (addAll us levels).bind (addAll ts) := by
  induction ts with
  | nil => exact (Option.bind_fun_some _).symm
  | cons t ts ih =>
    rw [List.cons_append, addAll, ih, Option.bind_assoc]
    rfl

end Levels

def nodes? (ts : List Token) : Option (List Node) :=
  match Levels.addAll ts ⟨[], []⟩ with
  | some ⟨ns, []⟩ => some ns
  | _ => none

/-- These tokens are read as these nodes, whatever stands around them. -/
def Nests (ts : List Token) (ns : List Node) : Prop :=
  ∀ behind outer, Levels.addAll ts ⟨behind, outer⟩ = some ⟨ns ++ behind, outer⟩

variable {ts us : List Token} {ns ms : List Node}

theorem Nests.nodes?_eq (h : Nests ts ns) : nodes? ts = some ns := by
  rw [nodes?, h [] [], List.append_nil]

theorem nests_nil : Nests [] [] := fun _ _ => rfl

theorem Nests.append (h : Nests ts ns) (h' : Nests us ms) : Nests (ts ++ us) (ns ++ ms) := by
  intro behind outer
  rw [Levels.addAll_append, h', Option.bind_some, h, List.append_assoc]

theorem nests_leaf {t : Token} (h : t.edge? = none) : Nests [t] [.leaf t] := by
  intro behind outer
  rw [Levels.addAll, Levels.addAll, Option.bind_some, Levels.add, h]
  rfl

theorem nests_leaves (h : ∀ t ∈ ts, t.edge? = none) : Nests ts (ts.map .leaf) := by
  induction ts with
  | nil => exact nests_nil
  | cons t ts ih =>
    exact (nests_leaf (h t List.mem_cons_self)).append (ih fun u hu => h u (List.mem_cons_of_mem t hu))

/-- All that stands between two brackets is one node. -/
theorem Nests.group {first last : Token} {b : Bracket} (h : Nests ts ns)
    (hfirst : first.edge? = some (.opening b)) (hlast : last.edge? = some (.closing b)) :
    Nests (first :: ts ++ [last]) [.group b ns] := by
  intro behind outer
  have hclose : Levels.addAll [last] ⟨behind, outer⟩ = some ⟨[], (b, behind) :: outer⟩ := by
    rw [Levels.addAll, Levels.addAll, Option.bind_some, Levels.add, hlast]
  have hopen : Levels.add first ⟨ns, (b, behind) :: outer⟩ =
      some ⟨.group b ns :: behind, outer⟩ := by
    rw [Levels.add, hfirst]
    exact if_pos rfl
  -- from the right, the closing bracket comes first
  rw [Levels.addAll_append, hclose, Option.bind_some, Levels.addAll, h, List.append_nil,
    Option.bind_some, hopen]
  rfl

theorem Nests.braces (h : Nests ts ns) :
    Nests (.symbol '\x7b' :: ts ++ [.symbol '\x7d']) [.group .brace ns] := h.group rfl rfl

theorem Nests.parens (h : Nests ts ns) :
    Nests (.symbol '(' :: ts ++ [.symbol ')']) [.group .paren ns] := h.group rfl rfl

theorem nests_flatMap {α : Type} {l : List α} {f : α → List Token} {g : α → List Node}
    (h : ∀ a, Nests (f a) (g a)) : Nests (l.flatMap f) (l.flatMap g) := by
  induction l with
  | nil => exact nests_nil
  | cons a l ih => exact (h a).append ih

def entries? : List Node → Option (List (List Node))
  | [] => some []
  | .group .brace inside :: .leaf (.symbol ',') :: ns => (entries? ns).map (inside :: ·)
  | _ => none

theorem entries?_flatMap {α : Type} (l : List α) (f : α → List Node) :
    entries? (l.flatMap fun a => [.group .brace (f a), .leaf (.symbol ',')]) =
      some (l.map f) := by
  induction l with
  | nil => rfl
  | cons a l ih =>
    rw [List.flatMap_cons, List.cons_append, List.cons_append, List.nil_append, entries?, ih]
    rfl

/-- The namespaces around a text, and what stands inside. -/
def enclosed? (ts : List Token) : Option (List String × List Token) :=
  let (scope, inner) := openings ts
  let count := inner.length - scope.length
  if inner.drop count = List.replicate scope.length (.symbol '\x7d') then
    some (scope, inner.take count)
  else none

theorem enclosed?_eq {w : String} (h : ts.head? = some (.word w)) (hw : w ≠ "namespace")
    (scope : List String) :
    enclosed? ((scope.flatMap fun segment => [.word "namespace", .word segment, .symbol '\x7b']) ++
      (ts ++ List.replicate scope.length (.symbol '\x7d'))) = some (scope, ts) := by
  have hopen := openings_append scope
    (openings_of_head h hw (List.replicate scope.length (.symbol '\x7d')))
  simp [enclosed?, hopen]

end VpdHeaders.Cpp
