import Mathlib.Data.List.Chain
import VpdHeaders.Diff.Hunk
import VpdHeaders.Proofs.Diff.Compaction

/-! # Blocks: runs of a script put together -/
namespace VpdHeaders.Diff

def removedText (blocks : List Block) : List String := blocks.flatMap Block.removed

def addedText (blocks : List Block) : List String := blocks.flatMap Block.added

/-- A block that stays knows both of its places. A change knows its place in a text that it has lines
in. -/
structure Block.IsPlaced (i j : Nat) (b : Block) : Prop where
  old : (b.changed = true → b.removed ≠ []) → b.oldAt = i
  new : (b.changed = true → b.added ≠ []) → b.newAt = j
  stays : b.changed = false → b.added = b.removed

def BlocksPlaced (i j : Nat) (blocks : List Block) : Prop :=
  Aligned Block.removed Block.added Block.IsPlaced i j blocks

section Texts

variable {i j : Nat} {b : Block} {as bs : List Block}

@[simp] theorem removedText_nil : removedText [] = [] := rfl

@[simp] theorem addedText_nil : addedText [] = [] := rfl

@[simp] theorem removedText_cons : removedText (b :: bs) = b.removed ++ removedText bs :=
  List.flatMap_cons

@[simp] theorem addedText_cons : addedText (b :: bs) = b.added ++ addedText bs := List.flatMap_cons

@[simp] theorem removedText_append : removedText (as ++ bs) = removedText as ++ removedText bs :=
  List.flatMap_append

@[simp] theorem addedText_append : addedText (as ++ bs) = addedText as ++ addedText bs :=
  List.flatMap_append

@[simp] theorem blocksPlaced_nil : BlocksPlaced i j [] := trivial

@[simp] theorem blocksPlaced_cons : BlocksPlaced i j (b :: bs) ↔
    b.IsPlaced i j ∧ BlocksPlaced (i + b.removed.length) (j + b.added.length) bs := Iff.rfl

@[simp] theorem blocksPlaced_append : BlocksPlaced i j (as ++ bs) ↔
    BlocksPlaced i j as ∧
      BlocksPlaced (i + (removedText as).length) (j + (addedText as).length) bs :=
  aligned_append ..

end Texts

structure IsTidy (blocks : List Block) : Prop where
  full : ∀ b ∈ blocks, b.removed = [] → b.changed = true ∧ b.added ≠ []
  apart : blocks.IsChain fun a b => a.changed = true → b.changed = false

theorem isTidy_append_iff {as bs : List Block} : IsTidy (as ++ bs) ↔
    IsTidy as ∧ IsTidy bs ∧
      ∀ a ∈ as.getLast?, ∀ b ∈ bs.head?, a.changed = true → b.changed = false := by
  constructor
  · rintro ⟨hfull, hapart⟩
    obtain ⟨has, hbs, h⟩ := List.isChain_append.mp hapart
    exact ⟨⟨fun b hb => hfull b (List.mem_append_left _ hb), has⟩,
      ⟨fun b hb => hfull b (List.mem_append_right _ hb), hbs⟩, h⟩
  · rintro ⟨has, hbs, h⟩
    exact ⟨List.forall_mem_append.mpr ⟨has.full, hbs.full⟩,
      List.isChain_append.mpr ⟨has.apart, hbs.apart, h⟩⟩

structure BlocksCover (i j : Nat) (old new : List String) (blocks : List Block) : Prop where
  old : removedText blocks = old
  new : addedText blocks = new
  placed : BlocksPlaced i j blocks

theorem BlocksCover.append {i j : Nat} {old new old' new' : List String} {as bs : List Block}
    (h : BlocksCover i j old new as)
    (h' : BlocksCover (i + old.length) (j + new.length) old' new' bs) :
    BlocksCover i j (old ++ old') (new ++ new') (as ++ bs) where
  old := by rw [removedText_append, h.old, h'.old]
  new := by rw [addedText_append, h.new, h'.new]
  placed := by
    rw [blocksPlaced_append, h.old, h.new]
    exact ⟨h.placed, h'.placed⟩

theorem blocksCover_singleton {i j : Nat} {b : Block} (h : b.IsPlaced i j) :
    BlocksCover i j b.removed b.added [b] := ⟨by simp, by simp, h, trivial⟩

namespace Pending

variable {i j : Nat} {p : Pending} {r : Run}

def removed (p : Pending) : List String := p.deleted.elim [] Run.lines

def added (p : Pending) : List String := p.inserted.elim [] Run.lines

/-- A pending change knows where its deletion stands in the old text and its insertion in the new. -/
structure IsPlaced (i j : Nat) (p : Pending) : Prop where
  old : ∀ r ∈ p.deleted, r.oldAt = i
  new : ∀ r ∈ p.inserted, r.newAt = j

theorem isPlaced_nothing : IsPlaced i j nothing := ⟨by simp [nothing], by simp [nothing]⟩

theorem blocksCover_block (h : p.IsPlaced i j) : BlocksCover i j p.removed p.added p.block := by
  obtain ⟨deleted, inserted⟩ := p
  obtain ⟨hold, hnew⟩ := h
  cases deleted with
  | none =>
    cases inserted with
    | none => exact ⟨rfl, rfl, trivial⟩
    | some n =>
      have hb : (⟨true, n.oldAt, n.newAt, [], n.lines⟩ : Block).IsPlaced i j :=
        ⟨fun h => absurd rfl (h rfl), fun _ => hnew n rfl, nofun⟩
      exact blocksCover_singleton hb
  | some o =>
    cases inserted with
    | none =>
      have hb : (⟨true, o.oldAt, o.newAt, o.lines, []⟩ : Block).IsPlaced i j :=
        ⟨fun _ => hold o rfl, fun h => absurd rfl (h rfl), nofun⟩
      exact blocksCover_singleton hb
    | some n =>
      have hb : (⟨true, o.oldAt, n.newAt, o.lines, n.lines⟩ : Block).IsPlaced i j :=
        ⟨fun _ => hold o rfl, fun _ => hnew n rfl, nofun⟩
      exact blocksCover_singleton hb

def Full (p : Pending) : Prop :=
  (∀ r ∈ p.deleted, r.lines ≠ []) ∧ ∀ r ∈ p.inserted, r.lines ≠ []

theorem full_nothing : nothing.Full := ⟨by simp [nothing], by simp [nothing]⟩

theorem isTidy_block (h : p.Full) : IsTidy p.block := by
  obtain ⟨deleted, inserted⟩ := p
  obtain ⟨hold, hnew⟩ := h
  cases deleted <;> cases inserted <;> constructor <;> simp_all [block]

def delete (p : Pending) (r : Run) : Pending := { p with deleted := extend p.deleted r }

def insert (p : Pending) (r : Run) : Pending := { p with inserted := extend p.inserted r }

theorem removed_delete : (p.delete r).removed = p.removed ++ r.lines := by
  obtain ⟨deleted, inserted⟩ := p
  cases deleted <;> simp [delete, extend, removed]

theorem added_delete : (p.delete r).added = p.added := rfl

theorem removed_insert : (p.insert r).removed = p.removed := rfl

theorem added_insert : (p.insert r).added = p.added ++ r.lines := by
  obtain ⟨deleted, inserted⟩ := p
  cases inserted <;> simp [insert, extend, added]

theorem isPlaced_delete (h : p.IsPlaced i j) (hr : r.oldAt = i + p.removed.length) :
    (p.delete r).IsPlaced i j := by
  obtain ⟨deleted, inserted⟩ := p
  refine ⟨?_, h.new⟩
  cases deleted with
  | none => simpa [delete, extend, removed] using hr
  | some f => simpa [delete, extend] using h.old f rfl

theorem isPlaced_insert (h : p.IsPlaced i j) (hr : r.newAt = j + p.added.length) :
    (p.insert r).IsPlaced i j := by
  obtain ⟨deleted, inserted⟩ := p
  refine ⟨h.old, ?_⟩
  cases inserted with
  | none => simpa [insert, extend, added] using hr
  | some f => simpa [insert, extend] using h.new f rfl

theorem full_delete (h : p.Full) (hr : r.lines ≠ []) : (p.delete r).Full := by
  obtain ⟨deleted, inserted⟩ := p
  refine ⟨?_, h.2⟩
  cases deleted <;> simp [delete, extend, hr]

theorem full_insert (h : p.Full) (hr : r.lines ≠ []) : (p.insert r).Full := by
  obtain ⟨deleted, inserted⟩ := p
  refine ⟨h.1, ?_⟩
  cases inserted <;> simp [insert, extend, hr]

end Pending

section BlocksFrom

variable {i j : Nat} {b : Block} {p : Pending} {r : Run} {runs : List Run}

private def Block.extend (b : Block) (lines : List String) : Block :=
  { b with removed := b.removed ++ lines, added := b.added ++ lines }

private theorem blocksFrom_equal (hr : r.kind = .equal) : blocksFrom none p (r :: runs) =
    p.block ++ blocksFrom (some ⟨false, r.oldAt, r.newAt, r.lines, r.lines⟩) .nothing runs := by
  simp [blocksFrom, hr]

private theorem blocksFrom_delete (hr : r.kind = .delete) :
    blocksFrom none p (r :: runs) = blocksFrom none (p.delete r) runs := by
  simp [blocksFrom, hr, Pending.delete]

private theorem blocksFrom_insert (hr : r.kind = .insert) :
    blocksFrom none p (r :: runs) = blocksFrom none (p.insert r) runs := by
  simp [blocksFrom, hr, Pending.insert]

private theorem blocksFrom_some_equal (hr : r.kind = .equal) :
    blocksFrom (some b) .nothing (r :: runs) = blocksFrom (some (b.extend r.lines)) .nothing runs := by
  simp [blocksFrom, hr, Pending.block, Pending.nothing, Block.extend]

private theorem blocksFrom_some_change (hr : r.kind ≠ .equal) :
    blocksFrom (some b) .nothing (r :: runs) = b :: blocksFrom none .nothing (r :: runs) := by
  cases hk : r.kind <;> simp_all [blocksFrom]

/-- Behind any pending change, the blocks of runs lead from the one text to the other. -/
private def CoverBehindChange (runs : List Run) : Prop :=
  ∀ i j (p : Pending), p.IsPlaced i j → Placed (i + p.removed.length) (j + p.added.length) runs →
    BlocksCover i j (p.removed ++ oldText runs) (p.added ++ newText runs) (blocksFrom none p runs)

/-- They do so behind any block that stays. -/
private def CoverBehindStay (runs : List Run) : Prop :=
  ∀ i j (b : Block), b.changed = false → b.IsPlaced i j →
    Placed (i + b.removed.length) (j + b.added.length) runs →
    BlocksCover i j (b.removed ++ oldText runs) (b.added ++ newText runs)
      (blocksFrom (some b) .nothing runs)

private theorem coverBehindChange_cons (hchange : CoverBehindChange runs)
    (hstay : CoverBehindStay runs) : CoverBehindChange (r :: runs) := by
  intro i j p hp hr
  cases hk : r.kind with
  | equal =>
    obtain ⟨⟨hold, hnew⟩, hrest⟩ := (placed_equal hk).mp hr
    have hb : (⟨false, r.oldAt, r.newAt, r.lines, r.lines⟩ : Block).IsPlaced
        (i + p.removed.length) (j + p.added.length) := ⟨fun _ => hold, fun _ => hnew, fun _ => rfl⟩
    have h := (Pending.blocksCover_block hp).append (hstay _ _ _ rfl hb hrest)
    rw [blocksFrom_equal hk]
    simpa [Run.oldLines_of_ne, Run.newLines_of_ne, hk] using h
  | delete =>
    obtain ⟨hold, hrest⟩ := (placed_delete hk).mp hr
    rw [Nat.add_assoc, ← List.length_append, ← Pending.removed_delete, ← Pending.added_delete] at hrest
    have h := hchange i j (p.delete r) (Pending.isPlaced_delete hp hold) hrest
    rw [blocksFrom_delete hk]
    simpa [Run.oldLines_of_ne, Run.newLines_of_delete, hk, Pending.removed_delete,
      Pending.added_delete] using h
  | insert =>
    obtain ⟨hnew, hrest⟩ := (placed_insert hk).mp hr
    rw [Nat.add_assoc, ← List.length_append, ← Pending.added_insert, ← Pending.removed_insert] at hrest
    have h := hchange i j (p.insert r) (Pending.isPlaced_insert hp hnew) hrest
    rw [blocksFrom_insert hk]
    simpa [Run.oldLines_of_insert, Run.newLines_of_ne, hk, Pending.removed_insert,
      Pending.added_insert] using h

private theorem coverBehindStay_cons (hchange : CoverBehindChange (r :: runs))
    (hstay : CoverBehindStay runs) : CoverBehindStay (r :: runs) := by
  intro i j b hb hplaced hr
  by_cases hk : r.kind = .equal
  · obtain ⟨-, hrest⟩ := (placed_equal hk).mp hr
    have hextended : (b.extend r.lines).IsPlaced i j := by
      refine ⟨fun _ => hplaced.old ?_, fun _ => hplaced.new ?_, fun _ => ?_⟩
      · simp [hb]
      · simp [hb]
      · simp [Block.extend, hplaced.stays hb]
    have h := hstay i j (b.extend r.lines) hb hextended (by
      simpa [Block.extend, Nat.add_assoc] using hrest)
    rw [blocksFrom_some_equal hk]
    simpa [Block.extend, Run.oldLines_of_ne, Run.newLines_of_ne, hk] using h
  · rw [blocksFrom_some_change hk]
    exact (blocksCover_singleton hplaced).append
      (hchange _ _ .nothing Pending.isPlaced_nothing hr)

private theorem blocksCover_blocksFrom (runs : List Run) :
    CoverBehindChange runs ∧ CoverBehindStay runs := by
  -- both at once, as each of a change and a block that stays can come behind the other
  induction runs with
  | nil =>
    refine ⟨fun i j p hp _ => ?_, fun i j b _ hb _ => ?_⟩
    · simpa [blocksFrom] using Pending.blocksCover_block hp
    · simpa [blocksFrom, Pending.block, Pending.nothing] using blocksCover_singleton hb
  | cons r rest ih =>
    have hchange := coverBehindChange_cons (r := r) ih.1 ih.2
    exact ⟨hchange, coverBehindStay_cons hchange ih.2⟩

private theorem changed_of_mem_head? (hb : b.changed = false) :
    ∀ c ∈ (blocksFrom (some b) .nothing runs).head?, c.changed = false := by
  induction runs generalizing b with
  | nil => simp [blocksFrom, hb]
  | cons r rest ih =>
    by_cases hk : r.kind = .equal
    · rw [blocksFrom_some_equal hk]
      exact ih (b := b.extend r.lines) hb
    · rw [blocksFrom_some_change hk]
      simpa using hb

private theorem isTidy_blocksFrom (hruns : Full runs) :
    (∀ p : Pending, p.Full → IsTidy (blocksFrom none p runs)) ∧
    ∀ b : Block, b.changed = false → b.removed ≠ [] → IsTidy (blocksFrom (some b) .nothing runs) := by
  have hsingle {b : Block} (h : b.removed ≠ []) : IsTidy [b] :=
    ⟨by simp [h], List.isChain_singleton b⟩
  induction runs with
  | nil =>
    refine ⟨fun p hp => ?_, fun b _ hb => ?_⟩
    · simpa [blocksFrom] using Pending.isTidy_block hp
    · simpa [blocksFrom, Pending.block, Pending.nothing] using hsingle hb
  | cons r rest ih =>
    obtain ⟨hr, hrest⟩ := full_cons.mp hruns
    obtain ⟨ihChange, ihStay⟩ := ih hrest
    have hchange : ∀ p : Pending, p.Full → IsTidy (blocksFrom none p (r :: rest)) := by
      intro p hp
      cases hk : r.kind with
      | equal =>
        rw [blocksFrom_equal hk]
        exact isTidy_append_iff.mpr ⟨Pending.isTidy_block hp, ihStay _ rfl hr,
          fun a _ b hb _ => changed_of_mem_head? rfl b hb⟩
      | delete =>
        rw [blocksFrom_delete hk]
        exact ihChange _ (Pending.full_delete hp hr)
      | insert =>
        rw [blocksFrom_insert hk]
        exact ihChange _ (Pending.full_insert hp hr)
    refine ⟨hchange, fun b hstay hb => ?_⟩
    by_cases hk : r.kind = .equal
    · rw [blocksFrom_some_equal hk]
      exact ihStay _ hstay (by simp [Block.extend, hb])
    · rw [blocksFrom_some_change hk]
      exact isTidy_append_iff.mpr ⟨hsingle hb, hchange _ Pending.full_nothing, by simp [hstay]⟩

theorem blocksCover_blocks {old new : List String} (h : Covers i j old new runs) :
    BlocksCover i j old new (blocks runs) := by
  have hblocks := (blocksCover_blocksFrom runs).1 i j .nothing Pending.isPlaced_nothing h.placed
  rwa [h.old, h.new] at hblocks

theorem isTidy_blocks (h : Full runs) : IsTidy (blocks runs) :=
  (isTidy_blocksFrom h).1 .nothing Pending.full_nothing

end BlocksFrom

end VpdHeaders.Diff
