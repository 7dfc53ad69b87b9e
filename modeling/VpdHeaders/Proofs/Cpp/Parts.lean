import VpdHeaders.Proofs.Cpp.Scan

/-! # Taking scanned text apart -/
namespace VpdHeaders.Cpp

def tokens? (s : String) : Option (List Token) :=
  if (scan s).2 = .between then some (tokens s) else none

theorem Reads.tokens?_eq {s : String} {ts : List Token} (h : Reads s ts) :
    tokens? s = some ts := by
  rw [tokens?, h.tokens_eq, if_pos (congrArg Prod.snd h)]

def after? (fixed ts : List Token) : Option (List Token) :=
  if fixed <+: ts then some (ts.drop fixed.length) else none

@[simp] theorem after?_append (fixed ts : List Token) : after? fixed (fixed ++ ts) = some ts := by
  simp [after?]

/-- The namespaces that are opened one inside the other, and what stands inside. -/
def openings : List Token → List String × List Token
  | .word "namespace" :: .word segment :: .symbol '\x7b' :: ts =>
    (segment :: (openings ts).1, (openings ts).2)
  | ts => ([], ts)

theorem openings_of_head {ts : List Token} {w : String} (h : ts.head? = some (.word w))
    (hw : w ≠ "namespace") (us : List Token) : openings (ts ++ us) = ([], ts ++ us) := by
  obtain ⟨rest, rfl⟩ := List.head?_eq_some_iff.mp h
  simp [openings, hw]

theorem openings_append (scope : List String) {ts : List Token} (h : openings ts = ([], ts)) :
    openings ((scope.flatMap fun segment =>
      [.word "namespace", .word segment, .symbol '\x7b']) ++ ts) = (scope, ts) := by
  induction scope with
  | nil => exact h
  | cons segment scope ih => simp [openings, ih]

def ended? (stop : Token) (ts : List Token) : Option (List (List Token)) :=
  let parts := ts.splitOn stop
  if parts.getLast? = some [] then some parts.dropLast else none

theorem ended?_flatMap {α : Type} {stop : Token} {l : List α} {f : α → List Token}
    (h : ∀ a ∈ l, stop ∉ f a) :
    ended? stop (l.flatMap fun a => f a ++ [stop]) = some (l.map f) := by
  have hsplit : (l.flatMap fun a => f a ++ [stop]).splitOn stop = l.map f ++ [[]] := by
    induction l with
    | nil => rfl
    | cons a l ih =>
      rw [List.flatMap_cons, List.append_assoc, List.singleton_append,
        List.splitOn_append_cons_self_of_not_mem (h a List.mem_cons_self),
        ih fun b hb => h b (List.mem_cons_of_mem a hb)]
      rfl
  simp [ended?, hsplit]

/-- Reading goes on with what a first step has read. -/
theorem bind_eq_some {α β : Type} {x : Option α} {a : α} {next : α → Option β} {b : β}
    (h : x = some a) (h' : next a = some b) : (x >>= next) = some b := by
  rw [h]
  exact h'

theorem mapM_map_eq_some {α β γ : Type} {write : α → β} {read : β → Option γ} {value : α → γ}
    {l : List α} (h : ∀ a ∈ l, read (write a) = some (value a)) :
    (l.map write).mapM read = some (l.map value) := by
  induction l with
  | nil => rfl
  | cons a l ih =>
    rw [List.map_cons, List.mapM_cons, h a List.mem_cons_self,
      ih fun b hb => h b (List.mem_cons_of_mem a hb)]
    rfl

end VpdHeaders.Cpp
