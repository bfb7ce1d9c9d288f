import ActorScript.Proofs.World.Annals

/-!
# The order of a tick

A tick goes through everybody who is there and not dormant, once.  Status comes first: the
active, then the standable, then the others.  Among equals those created earlier come first,
though the slots that they are in tell nothing of that.
-/

namespace ActorScript

/-- The place of a status in a tick, if it takes part. -/
def Status.rank? : Status → Option Nat
  | .active => some 0
  | .standable => some 1
  | .other _ => some 2
  | .dormant => none

namespace World

variable {world : World} {id : EntityId}

/-- The place of an entity in a tick, by its status. -/
def rankOf? (world : World) (id : EntityId) : Option Nat :=
  (world.statusOf? id).bind Status.rank?

/-- One entity comes before another in a tick: by status, or by age if that does not tell. -/
def Precedes (annals : Annals) (world : World) (left right : EntityId) : Prop :=
  ∃ first second, world.rankOf? left = some first ∧ world.rankOf? right = some second ∧
    (first < second ∨
      first = second ∧ annals.standing.idxOf left < annals.standing.idxOf right)

/-- Those who are there and have a place in a tick, by age. -/
def placed (world : World) (rank : Nat) : List EntityId :=
  world.live.filter fun id => world.rankOf? id = some rank

/-! ## The groups of a tick -/

theorem filter_census (small : world.slots.size < UInt32.size)
    {wanted : EntityId × Entity → Bool} {rank : Nat}
    (same : ∀ occupant, wanted occupant = decide (occupant.2.status.rank? = some rank)) :
    (world.census.filter wanted).map (·.1) = world.placed rank := by
  rw [placed, live, List.filter_map]
  congr 1
  apply List.filter_congr
  rintro ⟨id, entity⟩ listed
  have found := (mem_occupants_iff small).1 (List.mem_mergeSort.1 listed)
  simp [rankOf?, statusOf?, found, same]

theorem tickOrder_eq (small : world.slots.size < UInt32.size) :
    world.tickOrder = world.placed 0 ++ world.placed 1 ++ world.placed 2 := by
  unfold tickOrder
  dsimp only
  refine congrArg₂ (· ++ ·) (congrArg₂ (· ++ ·) ?_ ?_) ?_ <;>
  · apply filter_census small
    rintro ⟨_, entity⟩
    cases entity.status <;> rfl

theorem mem_placed_iff (small : world.slots.size < UInt32.size) {rank : Nat} :
    id ∈ world.placed rank ↔ world.rankOf? id = some rank := by
  rw [placed, List.mem_filter, mem_live_iff small, decide_eq_true_eq, and_iff_right_iff_imp]
  intro ranked
  obtain ⟨_, status_eq, _⟩ := Option.bind_eq_some_iff.1 ranked
  obtain ⟨entity, found, _⟩ := Option.map_eq_some_iff.1 status_eq
  exact Option.isSome_iff_exists.2 ⟨entity, found⟩

theorem mem_tickOrder_iff (small : world.slots.size < UInt32.size) :
    id ∈ world.tickOrder ↔ ∃ status, world.statusOf? id = some status ∧ status ≠ .dormant := by
  rw [tickOrder_eq small, List.mem_append, List.mem_append, mem_placed_iff small,
    mem_placed_iff small, mem_placed_iff small, rankOf?]
  cases world.statusOf? id with
  | none => simp
  | some status => cases status <;> simp [Status.rank?]

/-! ## Age -/

theorem pairwise_idxOf {ids : List EntityId} (nodup : ids.Nodup) :
    ids.Pairwise fun left right => ids.idxOf left < ids.idxOf right := by
  rw [List.pairwise_iff_getElem]
  intro first second first_inside second_inside less
  rw [nodup.idxOf_getElem, nodup.idxOf_getElem]
  exact less

theorem pairwise_placed {annals : Annals} (tells : Tells annals world)
    (small : world.slots.size < UInt32.size) (rank : Nat) :
    (world.placed rank).Pairwise (Precedes annals world) := by
  have aged := (pairwise_idxOf tells.lists.nodup).filter
    fun id => decide (world.rankOf? id = some rank)
  rw [placed, tells.lists.live_eq small]
  apply aged.imp_of_mem
  intro left right left_listed right_listed less
  have left_rank := of_decide_eq_true (List.mem_filter.1 left_listed).2
  have right_rank := of_decide_eq_true (List.mem_filter.1 right_listed).2
  exact ⟨rank, rank, left_rank, right_rank, .inr ⟨rfl, less⟩⟩

theorem precedes_of_placed {annals : Annals} {left right : EntityId} {first second : Nat}
    (left_placed : left ∈ world.placed first) (right_placed : right ∈ world.placed second)
    (less : first < second) : Precedes annals world left right :=
  ⟨first, second, of_decide_eq_true (List.mem_filter.1 left_placed).2,
    of_decide_eq_true (List.mem_filter.1 right_placed).2, .inl less⟩

/-- After any history a tick goes once through everybody who is there and not dormant, and
through nobody else, ordered by status and among equals by age. -/
theorem tickOrder_run (sectorCount wallCount : Word) (history : List Operation)
    (small : ((World.new sectorCount wallCount).run history).1.slots.size < UInt32.size) :
    let world := ((World.new sectorCount wallCount).run history).1
    let annals := ((World.new sectorCount wallCount).run history).2
    world.tickOrder.Nodup ∧
      (∀ id, id ∈ world.tickOrder ↔
        ∃ status, world.statusOf? id = some status ∧ status ≠ .dormant) ∧
      world.tickOrder.Pairwise (Precedes annals world) := by
  intro world annals
  have tells : Tells annals world := tells_run sectorCount wallCount history small
  refine ⟨(nodup_tickOrder small).of_map, fun id => mem_tickOrder_iff small, ?_⟩
  rw [tickOrder_eq small, List.pairwise_append, List.pairwise_append]
  refine ⟨⟨pairwise_placed tells small 0, pairwise_placed tells small 1, ?_⟩,
    pairwise_placed tells small 2, ?_⟩
  · intro left active right standable
    exact precedes_of_placed active standable (by decide)
  · intro left earlier right other
    rcases List.mem_append.1 earlier with active | standable
    · exact precedes_of_placed active other (by decide)
    · exact precedes_of_placed standable other (by decide)

/-- Two of three entities go, and the two that take their slots take the last vacated first.  A
newcomer falls asleep, another and the one that stayed lose their place among the active. -/
def recycled : List Operation :=
  [.spawn 1 none, .spawn 2 none, .spawn 3 none, .delete ⟨0, 0⟩, .delete ⟨2, 0⟩, .spawn 4 none,
    .spawn 5 none, .spawn 6 none, .spawn 7 none, .setStatus ⟨1, 0⟩ (.other 9),
    .setStatus ⟨3, 0⟩ .dormant, .cause (some ⟨4, 0⟩) (.changeStatus 2)]

/-- The entity in the first slot comes after an older one in the third, and the eldest of all
comes last because of its status. -/
theorem tickOrder_recycled :
    let world := ((World.new 1 0).run recycled).1
    let annals := ((World.new 1 0).run recycled).2
    world.slots.size < UInt32.size ∧ world.tickOrder = [⟨2, 1⟩, ⟨0, 1⟩, ⟨4, 0⟩, ⟨1, 0⟩] ∧
      ⟨3, 0⟩ ∉ world.tickOrder ∧ Precedes annals world ⟨2, 1⟩ ⟨0, 1⟩ ∧
      Precedes annals world ⟨4, 0⟩ ⟨1, 0⟩ := by
  have small : ((World.new 1 0).run recycled).1.slots.size < UInt32.size := by
    decide +kernel
  have order_eq :
      ((World.new 1 0).run recycled).1.tickOrder = [⟨2, 1⟩, ⟨0, 1⟩, ⟨4, 0⟩, ⟨1, 0⟩] := by
    have live_eq := (tells_run 1 0 recycled small).lists.live_eq small
    rw [tickOrder_eq small, placed, placed, placed, live_eq]
    decide +kernel
  obtain ⟨_, mem_iff, ordered⟩ := tickOrder_run 1 0 recycled small
  have asleep : ((World.new 1 0).run recycled).1.statusOf? ⟨3, 0⟩ = some .dormant := by
    decide +kernel
  refine ⟨small, order_eq, ?_, ?_, ?_⟩
  · rw [mem_iff, asleep]
    simp
  · rw [order_eq] at ordered
    exact List.rel_of_pairwise_cons ordered (by decide)
  · rw [order_eq] at ordered
    exact List.rel_of_pairwise_cons ordered.of_cons.of_cons (by decide)

end World

end ActorScript
