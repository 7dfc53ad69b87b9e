import VpdHeaders.Fru.Header
import VpdHeaders.Proofs.Dictionary

/-! # What the statements of a specialization do

A program works on local maps and on the object that they are handed over to. Where it does what a
program must not do there is no next state. -/
namespace VpdHeaders

variable {α : Type}

/-- What a local variable holds. -/
inductive Cell (α : Type)
  | filled (content : Dictionary α)
  | moved

structure Memory (α : Type) where
  locals : String → Option (Cell α)
  object : Dictionary (Dictionary α)

def Memory.start : Memory α := ⟨fun _ => none, fun _ => none⟩

namespace Statement

/-- What a program finds around it. A local of such a name would be declared twice, or hide what
later statements need. -/
def outerNames : List String := ["Inner", "object", "path", "print", "std", "vpdStore"]

/-- A declaration needs a new name, all else a local that is declared and not moved from. An
assignment overwrites; a key that the object has already is left as it is. -/
def exec (get : Reference → α) : Statement → Memory α → Option (Memory α)
  | .declare x, m =>
    if x ∈ outerNames ∨ (m.locals x).isSome then none
    else some { m with locals := Function.update m.locals x (some (.filled fun _ => none)) }
  | .assign x key r, m =>
    match m.locals x with
    | some (.filled content) =>
      let filled := Function.update content key (some (get r))
      some { m with locals := Function.update m.locals x (some (.filled filled)) }
    | _ => none
  | .emplace key x, m =>
    match m.locals x with
    | some (.filled content) =>
      some {
        locals := Function.update m.locals x (some .moved)
        object := Function.update m.object key (some ((m.object key).getD content)) }
    | _ => none

def execAll (get : Reference → α) : List Statement → Memory α → Option (Memory α)
  | [], m => some m
  | s :: rest, m => (s.exec get m).bind (execAll get rest)

variable {get : Reference → α}

theorem execAll_append (p q : List Statement) (m : Memory α) :
    execAll get (p ++ q) m = (execAll get p m).bind (execAll get q) := by
  induction p generalizing m with
  | nil => rfl
  | cons s p ih =>
    simp only [List.cons_append, execAll]
    cases s.exec get m with
    | none => rfl
    | some m' => exact ih m'

end Statement

open Dictionary Statement

namespace Interface

variable (get : Reference → α)

def content (bs : List Binding) : Dictionary α := fun property =>
  (bs.find? fun b => b.name == property).map fun b => get b.reference

private theorem execAll_assign {x : String} {bs : List Binding} {m : Memory α} {c : Dictionary α}
    (hx : m.locals x = some (.filled c)) (hd : (bs.map Binding.name).Nodup) :
    execAll get (bs.map fun b => .assign x b.name b.reference) m =
      some { m with
        locals := Function.update m.locals x (some (.filled fun p => (content get bs p).or (c p))) } := by
  induction bs generalizing m c with
  | nil =>
    have hsame : Function.update m.locals x (some (.filled c)) = m.locals := by
      rw [← hx, Function.update_eq_self]
    simp [execAll, content, hsame]
  | cons b bs ih =>
    obtain ⟨hb, hd⟩ := List.nodup_cons.mp hd
    -- the first assignment, and then the others from where it leads to
    have hfirst : (Statement.assign x b.name b.reference).exec get m = some { m with
        locals := Function.update m.locals x
          (some (.filled (Function.update c b.name (some (get b.reference))))) } := by
      simp [exec, hx]
    have hall : (fun p => (content get bs p).or
        (Function.update c b.name (some (get b.reference)) p)) =
        fun p => (content get (b :: bs) p).or (c p) := ofList_or_update hb c
    rw [List.map_cons, execAll, hfirst, Option.bind_some, ih (Function.update_self _ _ _) hd]
    simp [hall]

structure IsFillable (i : Interface) : Prop where
  free : i.identifier ∉ outerNames
  properties : (i.properties.map Binding.name).Nodup

/-- One interface: its container is declared and holds all its properties, and nothing else is
changed. -/
theorem execAll_statements {i : Interface} {m : Memory α} (h : i.IsFillable)
    (hm : m.locals i.identifier = none) :
    execAll get i.statements m = some { m with
      locals := Function.update m.locals i.identifier (some (.filled (content get i.properties))) } := by
  have hfirst : (Statement.declare i.identifier).exec get m = some { m with
      locals := Function.update m.locals i.identifier (some (.filled fun _ => none)) } := by
    simp [exec, h.free, hm]
  rw [statements, execAll, hfirst, Option.bind_some,
    execAll_assign get (Function.update_self _ _ _) h.properties]
  simp

def filledLocals (is : List Interface) (locals : String → Option (Cell α)) :
    String → Option (Cell α) := fun x =>
  ((is.find? fun i => i.identifier == x).map fun i => .filled (content get i.properties)).or (locals x)

private theorem filledLocals_identifier {is : List Interface} (locals : String → Option (Cell α))
    (hd : (is.map Interface.identifier).Nodup) {i : Interface} (hi : i ∈ is) :
    filledLocals get is locals i.identifier = some (.filled (content get i.properties)) := by
  rw [filledLocals, find?_eq_some_of_nodup hd hi]
  rfl

theorem execAll_fill {is : List Interface} {m : Memory α} (h : ∀ i ∈ is, i.IsFillable)
    (hd : (is.map Interface.identifier).Nodup) (hm : ∀ i ∈ is, m.locals i.identifier = none) :
    execAll get (is.flatMap statements) m =
      some { m with locals := filledLocals get is m.locals } := by
  induction is generalizing m with
  | nil => rfl
  | cons i is ih =>
    obtain ⟨hi, hd⟩ := List.nodup_cons.mp hd
    rw [List.flatMap_cons, execAll_append,
      execAll_statements get (h i List.mem_cons_self) (hm i List.mem_cons_self), Option.bind_some,
      ih (fun j hj => h j (List.mem_cons_of_mem i hj)) hd]
    · have hall : filledLocals get is (Function.update m.locals i.identifier
          (some (.filled (content get i.properties)))) = filledLocals get (i :: is) m.locals :=
        ofList_or_update hi m.locals
      rw [hall]
    · intro j hj
      exact (update_of_not_mem hi m.locals _ hj).trans (hm j (List.mem_cons_of_mem i hj))

theorem execAll_emplace {is : List Interface} {locals : String → Option (Cell α)}
    {object : Dictionary (Dictionary α)} {c : Interface → Dictionary α}
    (hd : (is.map Interface.identifier).Nodup) (hn : (is.map Interface.name).Nodup)
    (hlocals : ∀ i ∈ is, locals i.identifier = some (.filled (c i)))
    (hobject : ∀ i ∈ is, object i.name = none) :
    ∃ m', execAll get (is.map emplacement) ⟨locals, object⟩ = some m' ∧
      m'.object = fun name => (ofList Interface.name c is name).or (object name) := by
  induction is generalizing locals object with
  | nil => exact ⟨_, rfl, by simp [ofList]⟩
  | cons i is ih =>
    obtain ⟨hi, hd⟩ := List.nodup_cons.mp hd
    obtain ⟨hin, hn⟩ := List.nodup_cons.mp hn
    have hfirst : i.emplacement.exec get ⟨locals, object⟩ = some {
        locals := Function.update locals i.identifier (some .moved)
        object := Function.update object i.name (some (c i)) } := by
      simp [emplacement, exec, hlocals i List.mem_cons_self, hobject i List.mem_cons_self]
    have hlocals' : ∀ j ∈ is, Function.update locals i.identifier (some .moved) j.identifier =
        some (.filled (c j)) := fun j hj =>
      (update_of_not_mem hi locals _ hj).trans (hlocals j (List.mem_cons_of_mem i hj))
    have hobject' : ∀ j ∈ is, Function.update object i.name (some (c i)) j.name = none := fun j hj =>
      (update_of_not_mem hin object _ hj).trans (hobject j (List.mem_cons_of_mem i hj))
    obtain ⟨m', hrun, hall⟩ := ih hd hn hlocals' hobject'
    refine ⟨m', ?_, hall.trans (ofList_or_update hin object)⟩
    rw [List.map_cons, execAll, hfirst, Option.bind_some, hrun]

end Interface

/-- The object that a program leaves behind, if it runs to its end. -/
def Statement.assembled (get : Reference → α) (body : List Statement) :
    Option (Dictionary (Dictionary α)) := (execAll get body .start).map Memory.object

/-- What a unit needs for its specialization to do what it should. -/
structure Fru.IsProgram (f : Fru) : Prop where
  fillable : ∀ i ∈ f.interfaces, i.IsFillable
  identifiers : (f.interfaces.map Interface.identifier).Nodup
  names : (f.interfaces.map Interface.name).Nodup

/-- Every interface ends up in the object, under its name and with its properties. -/
theorem Fru.IsProgram.assembled_eq {f : Fru} (h : f.IsProgram) (get : Reference → α) :
    assembled get (f.interfaces.flatMap Interface.statements ++
        f.interfaces.map Interface.emplacement) =
      some (ofList Interface.name (fun i => Interface.content get i.properties) f.interfaces) := by
  have hfill := Interface.execAll_fill get h.fillable h.identifiers
    fun i (_ : i ∈ f.interfaces) => (rfl : Memory.start.locals i.identifier = none)
  obtain ⟨m', hrun, hobject⟩ := Interface.execAll_emplace get h.identifiers h.names
    (fun i hi => Interface.filledLocals_identifier get Memory.start.locals h.identifiers hi)
    fun i (_ : i ∈ f.interfaces) => (rfl : Memory.start.object i.name = none)
  rw [assembled, execAll_append, hfill, Option.bind_some, hrun, Option.map_some, hobject]
  simp only [Memory.start, Option.or_none]

end VpdHeaders
