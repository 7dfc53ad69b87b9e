import VpdHeaders.Inventory.Header
import VpdHeaders.Proofs.Cpp.Arithmetic

/-! # Reading the value of an inventory property back -/
namespace VpdHeaders.Literal
open Cpp

def ofNodes? : List Node → Option Literal
  | [.leaf (.word "true")] => some (.boolean true)
  | [.leaf (.word "false")] => some (.boolean false)
  | [.leaf (.word "std"), .leaf (.symbol ':'), .leaf (.symbol ':'), .leaf (.word "string"),
      .group .paren [.leaf (.literal s)]] => some (.string s)
  | ns => (integer? ns).map fun v => .integer (Int64.ofInt v)

def integerTokens (n : Int64) : List Token :=
  if n = Int64.minValue then
    [.symbol '(', .symbol '-', .word "9223372036854775807", .symbol '-', .word "1", .symbol ')']
  else if n.toInt < 0 then [.symbol '-', .word n.toInt.natAbs.repr]
  else [.word n.toInt.natAbs.repr]

def integerNodes (n : Int64) : List Node :=
  if n = Int64.minValue then
    [.group .paren [.leaf (.symbol '-'), .leaf (.word "9223372036854775807"), .leaf (.symbol '-'),
      .leaf (.word "1")]]
  else if n.toInt < 0 then [.leaf (.symbol '-'), .leaf (.word n.toInt.natAbs.repr)]
  else [.leaf (.word n.toInt.natAbs.repr)]

def spelling : Literal → List Token
  | .boolean b => [.word (if b then "true" else "false")]
  | .integer n => integerTokens n
  | .string s =>
    [.word "std", .symbol ':', .symbol ':', .word "string", .symbol '(', .literal s, .symbol ')']

def nodes : Literal → List Node
  | .boolean b => [.leaf (.word (if b then "true" else "false"))]
  | .integer n => integerNodes n
  | .string s =>
    [.leaf (.word "std"), .leaf (.symbol ':'), .leaf (.symbol ':'), .leaf (.word "string"),
      .group .paren [.leaf (.literal s)]]

private theorem repr_ne {w : String} {c : Char} (h : c ∈ w.toList) (hc : c.isDigit = false) (n : Nat) :
    n.repr ≠ w := by
  rintro rfl
  simp [isDigit_of_mem_repr h] at hc

private theorem ofNodes?_repr (n : Nat) : ofNodes? [.leaf (.word n.repr)] =
    (integer? [.leaf (.word n.repr)]).map fun v => .integer (Int64.ofInt v) := by
  have htrue : n.repr ≠ "true" := repr_ne (c := 't') (by decide) (by decide) n
  have hfalse : n.repr ≠ "false" := repr_ne (c := 'f') (by decide) (by decide) n
  simp [ofNodes?, htrue, hfalse]

private theorem natAbs_le {n : Int64} (h : n ≠ Int64.minValue) :
    n.toInt.natAbs ≤ 0x7FFFFFFFFFFFFFFF := by
  have hle := n.le_toInt
  have hlt := n.toInt_lt
  have hne : n.toInt ≠ -2 ^ 63 := fun heq => h (Int64.toInt.inj heq)
  omega

private theorem ofNodes?_integerNodes (n : Int64) :
    ofNodes? (integerNodes n) = some (.integer n) := by
  have hback : Int64.ofInt n.toInt = n := Int64.ofInt_toInt n
  rw [integerNodes]
  split
  · next hleast =>
    subst hleast
    rw [ofNodes?, integer?_least]
    · rfl
    all_goals simp
  · next hn =>
    split
    · next hneg =>
      have hvalue : -(n.toInt.natAbs : Int) = n.toInt := by omega
      rw [ofNodes?, integer?_neg_repr (natAbs_le hn), Option.map_some, hvalue, hback]
      all_goals simp
    · next hpos =>
      have hvalue : (n.toInt.natAbs : Int) = n.toInt := by omega
      rw [ofNodes?_repr, integer?_repr (natAbs_le hn), Option.map_some, hvalue, hback]

/-- An expression has the kind and the value that it is written for. -/
theorem ofNodes?_nodes (l : Literal) : ofNodes? l.nodes = some l := by
  cases l with
  | boolean b => cases b <;> rfl
  | integer n => exact ofNodes?_integerNodes n
  | string s => rfl

theorem nests_spelling (l : Literal) : Nests l.spelling l.nodes := by
  have hword (w : String) : Nests [.word w] [.leaf (.word w)] := nests_leaf rfl
  have hminus : Nests [.symbol '-'] [.leaf (.symbol '-')] := nests_leaf rfl
  cases l with
  | boolean b => exact hword _
  | integer n =>
    rw [spelling, nodes, integerTokens, integerNodes]
    split
    · exact ((hminus.append (hword _)).append (hminus.append (hword _))).parens
    · split
      · exact hminus.append (hword _)
      · exact hword _
  | string s =>
    have hname : Nests [.word "std", .symbol ':', .symbol ':', .word "string"] _ :=
      nests_leaves (by decide)
    have hvalue : Nests [.literal s] [.leaf (.literal s)] := nests_leaf rfl
    exact hname.append hvalue.parens

private theorem reads_repr {s : String} {us : List Token} (n : Nat) (h : Reads s us)
    (hs : StopsWord s) : Reads (n.repr ++ s) (.word n.repr :: us) := by
  refine h.word (toList_repr_ne_nil n) (fun c hc => ?_) hs
  have hdigit : Identifier.isDigit c = true := by
    simpa [Identifier.isDigit, Char.isDigit, Char.le_def] using isDigit_of_mem_repr hc
  simp [Identifier.isPart, hdigit]

private theorem toString_eq (n : Int) :
    toString n = if n < 0 then "-" ++ n.natAbs.repr else n.natAbs.repr := by
  cases n with
  | ofNat m => rfl
  | negSucc m =>
    rw [if_pos (Int.negSucc_lt_zero m)]
    rfl

theorem reads_expression (l : Literal) {s : String} {us : List Token} (h : Reads s us)
    (hs : StopsWord s) : Reads (l.expression ++ s) (l.spelling ++ us) := by
  have hminus : Reads "-" [.symbol '-'] := reads_ofList rfl
  cases l with
  | boolean b =>
    have hword {w : String} (hw : Identifier.isValid w = true) : Reads (w ++ s) (.word w :: us) :=
      h.word (isPart_of_isValid hw).1 (isPart_of_isValid hw).2 hs
    rw [expression]
    cases b with
    | true => exact hword (by decide)
    | false => exact hword (by decide)
  | integer n =>
    rw [expression, spelling, integerTokens]
    split
    · have hleast : Reads "(-9223372036854775807 - 1)" [.symbol '(', .symbol '-',
        .word "9223372036854775807", .symbol '-', .word "1", .symbol ')'] := reads_ofList rfl
      exact hleast.append h
    · rw [toString_eq]
      split
      · rw [String.append_assoc]
        exact hminus.append (reads_repr _ h hs)
      · exact reads_repr _ h hs
  | string s' =>
    have hopen : Reads "std::string(" [.word "std", .symbol ':', .symbol ':', .word "string",
      .symbol '('] := reads_ofList rfl
    have hclose : Reads ")" [.symbol ')'] := reads_ofList rfl
    exact ((hopen.append (reads_literal s')).append hclose).append h

theorem isInRange_spelling (l : Literal) : ∀ t ∈ l.spelling, t.IsInRange := by
  have hword {w : String} (h : Identifier.isValid w = true) : (Token.word w).IsInRange :=
    Token.isInRange_of_isValid h
  cases l with
  | boolean b =>
    have hvalue := hword (w := if b then "true" else "false") (by cases b <;> decide)
    simpa [spelling] using hvalue
  | integer n =>
    rw [spelling, integerTokens]
    split
    · have hgreatest : Token.IsInRange (.word "9223372036854775807") :=
        Token.isInRange_repr (n := 9223372036854775807) (by omega)
      have hone : Token.IsInRange (.word "1") := Token.isInRange_repr (n := 1) (by omega)
      simp [hgreatest, hone]
    · next hn =>
      have hdigits := Token.isInRange_repr (natAbs_le hn)
      split <;> simp [hdigits]
  | string s =>
    have hstd : (Token.word "std").IsInRange := hword (by decide)
    have hstring : (Token.word "string").IsInRange := hword (by decide)
    simp [spelling, hstd, hstring]

end VpdHeaders.Literal
